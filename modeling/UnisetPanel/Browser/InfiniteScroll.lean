/-
  The infinite scroll of the sensor table (`20-ionc-renderer.js`).

  `loadSensors` asks for the first chunk and for the pinned sensors that are not
  in it, and subscribes to what it has loaded.  `loadMoreSensors` asks for the
  chunk that begins at the number of the sensors there are, drops those there
  are already, and subscribes to nothing.  So no sensor that it adds is kept up
  to date; a pinned sensor moves the offset past one that is not loaded then; and
  a filter of the page that lets no sensor of a chunk through asks for that chunk
  again and again (`not_completes_secondChunk`).

  All is well exactly if `loadSensors` loads all there is to load, and the table
  then sees that there is no more (`completes_iff`).  Without the pinned sensors
  and the filters of the page the rows at least all arrive
  (`exists_iterate_allSensors`).

  The requests succeed.  A server gives the rows of an object as they stand, or
  those that a request selects; how it searches is its own matter.
-/
import UnisetPanel.Browser.ListFilters
import Mathlib.Data.List.Nodup
import Mathlib.Data.List.Perm.Basic
import Mathlib.Logic.Function.Iterate

namespace UnisetPanel

/-- A server, as the page sees it: the sensors of an object. -/
structure IoncServer where
  rows : List IoncSensor
  nodup : (rows.map IoncSensor.id).Nodup
  /-- the sensors that a search finds -/
  search : String → IoncSensor → Bool
  /-- the sensors of an `iotype` -/
  ofType : String → IoncSensor → Bool
  /-- `ionc/get` -/
  get : List ℤ → List IoncSensor
  mem_get : ∀ ids s, s ∈ get ids ↔ s ∈ rows ∧ s.id ∈ ids

namespace IoncServer

variable (server : IoncServer)

/-- The rows that a request selects. -/
def selected (r : IoncRequest) : List IoncSensor :=
  server.rows.filter fun s => r.search.all (server.search · s) && r.iotype.all (server.ofType · s)

/-- `ionc/sensors`. -/
def sensors (r : IoncRequest) : List IoncSensor := ((server.selected r).drop r.offset).take r.limit

end IoncServer

/-- What the scroll uses of `IONotifyControllerRenderer`. -/
structure IoncScroll where
  loader : IoncLoader
  hasMore : Bool
  /-- `subscribedSensorIds` -/
  subscribed : List ℤ

namespace IoncScroll

variable (server : IoncServer) (config : IoncConfig) (chunkSize : ℕ) (pinnedIds : List ℤ)
  (w : IoncScroll)

/-- A new view with these filters. -/
def new (f : IoncFilters) : IoncScroll := ⟨{ IoncLoader.new with filters := f }, true, []⟩

/-- `subscribeToSSE`: what is subscribed after it was called with these sensors. -/
def subscribeToSSE (subscribed ids : List ℤ) : List ℤ :=
  if ids = [] then subscribed
  else if ids.all (· ∈ subscribed) && subscribed.all (· ∈ ids) then subscribed
  else ids

/-- The request for the chunk at an offset. -/
def request (offset : ℕ) : IoncRequest :=
  { w.loader.filters.request config with offset := offset, limit := chunkSize }

/-- `loadSensors` up to `loadPinnedSensors`, with the responses. -/
def firstLoader : IoncLoader :=
  let request := w.request config chunkSize 0
  let sensors := server.sensors request
  let v := (w.loader.loadSensors config).response config request sensors pinnedIds
  if v.loading = .pinned then
    v.pinnedResponse (server.get (w.loader.missingIds config sensors pinnedIds))
  else v

/-- `loadSensors`, to its end.  `sensors` is the same array as `allSensors`, so the pinned sensors
are subscribed with the others. -/
def loadSensors : IoncScroll :=
  if w.loader.loading ≠ .idle then w
  else
    let v := w.firstLoader server config chunkSize pinnedIds
    { loader := v
      hasMore := (server.sensors (w.request config chunkSize 0)).length = chunkSize
      subscribed := subscribeToSSE w.subscribed (v.allSensors.map IoncSensor.id) }

/-- `loadMoreSensors`, to its end. -/
def loadMoreSensors : IoncScroll :=
  if !w.hasMore then w
  else
    let v := w.loader
    let sensors := server.sensors (w.request config chunkSize v.allSensors.length)
    let newSensors := v.shown config sensors
    let uniqueNewSensors := newSensors.filter fun s => s.id ∉ v.allSensors.map IoncSensor.id
    { w with
      loader := { v with
        allSensors := v.allSensors ++ uniqueNewSensors
        sensorMap := v.sensorMap ++ uniqueNewSensors.map IoncSensor.id }
      hasMore := sensors.length = chunkSize }

/-- The sensors that match the filters: those that the server selects and the page lets through. -/
def matching : List IoncSensor :=
  w.loader.shown config (server.selected (w.loader.filters.request config))

/-- **Complete**: all matching sensors are there, and the pinned ones if there is no filter text,
each once, and all that are there are subscribed. -/
structure Complete : Prop where
  matching : ∀ s ∈ w.matching server config, s ∈ w.loader.allSensors
  pinned : w.loader.filters.filter = "" →
    ∀ s ∈ server.rows, s.id ∈ pinnedIds → s ∈ w.loader.allSensors
  once : (w.loader.allSensors.map IoncSensor.id).Nodup
  subscribed : ∀ s ∈ w.loader.allSensors, s.id ∈ w.subscribed

/-- **The scroll ends and is complete then.** -/
def Completes : Prop :=
  ∃ n, let last := (loadMoreSensors server config chunkSize)^[n] w
    last.hasMore = false ∧ last.Complete server config pinnedIds

/-- What `loadSensors` loads: the matching sensors of the first chunk, and the pinned ones if there
is no filter text. -/
def LoadedFirst (s : IoncSensor) : Prop :=
  s ∈ w.loader.shown config (server.sensors (w.request config chunkSize 0)) ∨
    w.loader.filters.filter = "" ∧ s ∈ server.rows ∧ s.id ∈ pinnedIds

instance (s : IoncSensor) : Decidable (w.LoadedFirst server config chunkSize pinnedIds s) :=
  inferInstanceAs (Decidable (_ ∨ _ ∧ _ ∧ _))

end IoncScroll

/-! ### Sensors of the server -/

/-- The sensors of a table are the server's, each once, and their keys are known. -/
structure IoncLoader.Holds (v : IoncLoader) (rows : List IoncSensor) : Prop where
  mem : ∀ s ∈ v.allSensors, s ∈ rows
  nodup : (v.allSensors.map IoncSensor.id).Nodup
  keys : v.sensorMap = v.allSensors.map IoncSensor.id

namespace IoncServer

variable (server : IoncServer)

/-- The id tells which sensor it is. -/
theorem eq_of_id_eq {s s' : IoncSensor} (hs : s ∈ server.rows) (hs' : s' ∈ server.rows)
    (h : s.id = s'.id) : s = s' :=
  List.inj_on_of_nodup_map server.nodup hs hs' h

/-- An id that a table has is that of a sensor in it. -/
theorem mem_of_id_mem {v : IoncLoader} (hv : v.Holds server.rows) {s : IoncSensor}
    (hs : s ∈ server.rows) (h : s.id ∈ v.allSensors.map IoncSensor.id) : s ∈ v.allSensors := by
  obtain ⟨s', hs', hid⟩ := List.mem_map.mp h
  rw [← server.eq_of_id_eq (hv.mem s' hs') hs hid]
  exact hs'

theorem selected_subset (r : IoncRequest) : server.selected r ⊆ server.rows :=
  fun _ hs => (List.mem_filter.mp hs).1

theorem nodup_selected (r : IoncRequest) : ((server.selected r).map IoncSensor.id).Nodup :=
  server.nodup.sublist (List.filter_sublist.map _)

theorem sensors_sublist (r : IoncRequest) : (server.sensors r).Sublist (server.selected r) :=
  (List.take_sublist _ _).trans (List.drop_sublist _ _)

/-- How many rows a chunk has. -/
theorem length_sensors_eq_iff (r : IoncRequest) (h : 0 < r.limit) :
    (server.sensors r).length = r.limit ↔ r.offset + r.limit ≤ (server.selected r).length := by
  rw [sensors, List.length_take, List.length_drop]
  omega

/-- The pinned sensors are put in front, those that are not there. -/
theorem pinnedResponse_holds (sensors : List IoncSensor) (hsensors : ∀ s ∈ sensors, s ∈ server.rows)
    {v : IoncLoader} (hv : v.Holds server.rows) :
    (v.pinnedResponse sensors).Holds server.rows ∧
      ∀ s, s ∈ (v.pinnedResponse sensors).allSensors ↔ s ∈ v.allSensors ∨ s ∈ sensors := by
  simp only [IoncLoader.pinnedResponse]
  induction sensors generalizing v with
  | nil => exact ⟨⟨hv.mem, hv.nodup, hv.keys⟩, fun s => by simp⟩
  | cons sensor sensors ih =>
    obtain ⟨hsensor, hrest⟩ := List.forall_mem_cons.mp hsensors
    rw [List.foldl_cons]
    by_cases hmem : sensor.id ∈ v.sensorMap
    · rw [if_pos hmem]
      obtain ⟨hholds, hall⟩ := ih hrest hv
      rw [hv.keys] at hmem
      have hthere : sensor ∈ v.allSensors := server.mem_of_id_mem hv hsensor hmem
      refine ⟨hholds, fun s => (hall s).trans ?_⟩
      rw [List.mem_cons]
      constructor
      · exact Or.imp_right Or.inr
      · rintro (h | rfl | h)
        · exact Or.inl h
        · exact Or.inl hthere
        · exact Or.inr h
    · rw [if_neg hmem]
      rw [hv.keys] at hmem
      have hnew : IoncLoader.Holds { v with
          allSensors := sensor :: v.allSensors, sensorMap := sensor.id :: v.sensorMap }
          server.rows := by
        refine ⟨List.forall_mem_cons.mpr ⟨hsensor, hv.mem⟩, ?_, ?_⟩
        · rw [List.map_cons, List.nodup_cons]
          exact ⟨hmem, hv.nodup⟩
        · rw [List.map_cons, ← hv.keys]
      obtain ⟨hholds, hall⟩ := ih hrest hnew
      refine ⟨hholds, fun s => (hall s).trans ?_⟩
      rw [List.mem_cons, List.mem_cons, or_assoc, or_left_comm]

end IoncServer

/-- `applyLocalFilters` takes the sensors one by one. -/
theorem IoncFilters.exists_applyLocalFilters_eq_filter (f : IoncFilters) (config : IoncConfig) :
    ∃ keeps : IoncSensor → Bool,
      ∀ sensors, f.applyLocalFilters config sensors = sensors.filter keeps := by
  simp only [applyLocalFilters]
  by_cases hfilter : f.filter ≠ ""
  · simp only [if_pos hfilter]
    by_cases htype : f.typeFilter ≠ "all"
    · simp only [if_pos htype, List.filter_filter]
      exact ⟨_, fun _ => rfl⟩
    · simp only [if_neg htype]
      exact ⟨_, fun _ => rfl⟩
  · simp only [if_neg hfilter]
    by_cases htype : f.typeFilter ≠ "all"
    · simp only [if_pos htype]
      exact ⟨_, fun _ => rfl⟩
    · simp only [if_neg htype]
      exact ⟨fun _ => true, fun sensors => by rw [List.filter_true]⟩

/-- The page lets sensors through one by one. -/
theorem IoncLoader.exists_shown_eq_filter (v : IoncLoader) (config : IoncConfig) :
    ∃ keeps : IoncSensor → Bool, ∀ sensors, v.shown config sensors = sensors.filter keeps := by
  obtain ⟨keeps, hkeeps⟩ := v.filters.exists_applyLocalFilters_eq_filter config
  by_cases hui : config.useUIFilter = true
  · refine ⟨keeps, fun sensors => ?_⟩
    rw [shown, if_pos hui, hkeeps]
  · refine ⟨fun _ => true, fun sensors => ?_⟩
    rw [shown, if_neg hui, List.filter_true]

/-- What is shown of some sensors is shown of all. -/
theorem IoncLoader.mem_shown_of_subset {v : IoncLoader} {config : IoncConfig}
    {sensors sensors' : List IoncSensor} (h : sensors ⊆ sensors') {s : IoncSensor}
    (hs : s ∈ v.shown config sensors) : s ∈ sensors ∧ s ∈ v.shown config sensors' := by
  obtain ⟨keeps, hkeeps⟩ := v.exists_shown_eq_filter config
  rw [hkeeps, List.mem_filter] at hs
  rw [hkeeps, List.mem_filter]
  exact ⟨hs.1, h hs.1, hs.2⟩

namespace IoncScroll

variable {server : IoncServer} {config : IoncConfig} {chunkSize : ℕ} {pinnedIds : List ℤ}
  {w : IoncScroll}

/-! ### The first load -/

/-- A chunk is full if that many rows are selected. -/
theorem length_chunk_eq_iff (server : IoncServer) (config : IoncConfig) (w : IoncScroll)
    (offset : ℕ) (hchunk : 0 < chunkSize) :
    (server.sensors (w.request config chunkSize offset)).length = chunkSize ↔
      offset + chunkSize ≤ (server.selected (w.loader.filters.request config)).length :=
  server.length_sensors_eq_iff (w.request config chunkSize offset) hchunk

/-- The sensors of a chunk that are shown. -/
theorem mem_shown_sensors {offset : ℕ} {s : IoncSensor}
    (hs : s ∈ w.loader.shown config (server.sensors (w.request config chunkSize offset))) :
    s ∈ server.rows ∧ s ∈ w.matching server config := by
  have hsubset := (server.sensors_sublist (w.request config chunkSize offset)).subset
  obtain ⟨hmem, hmatching⟩ := IoncLoader.mem_shown_of_subset hsubset hs
  exact ⟨server.selected_subset _ (hsubset hmem), hmatching⟩

/-- The first response. -/
theorem response_holds (server : IoncServer) (config : IoncConfig) (pinnedIds : List ℤ)
    (v : IoncLoader) (r : IoncRequest) :
    (v.response config r (server.sensors r) pinnedIds).Holds server.rows := by
  obtain ⟨keeps, hkeeps⟩ := v.exists_shown_eq_filter config
  have hsublist : (v.shown config (server.sensors r)).Sublist (server.selected r) := by
    rw [hkeeps]
    exact List.filter_sublist.trans (server.sensors_sublist r)
  refine ⟨fun s hs => server.selected_subset r (hsublist.subset hs), ?_, rfl⟩
  exact (server.nodup_selected r).sublist (hsublist.map _)

/-- The sensors of the first chunk, and those that are fetched because they are pinned. -/
theorem mem_shown_or_missing_iff (w : IoncScroll) (s : IoncSensor) :
    (s ∈ w.loader.shown config (server.sensors (w.request config chunkSize 0)) ∨
      s ∈ server.rows ∧ s.id ∈ w.loader.missingIds config
        (server.sensors (w.request config chunkSize 0)) pinnedIds) ↔
      w.LoadedFirst server config chunkSize pinnedIds s := by
  have hholds := response_holds server config pinnedIds w.loader (w.request config chunkSize 0)
  by_cases hfilter : w.loader.filters.filter = ""
  · simp only [LoadedFirst, IoncLoader.missingIds, hfilter, if_true, List.mem_filter,
      decide_eq_true_iff, true_and]
    constructor
    · exact Or.imp_right fun h => ⟨h.1, h.2.1⟩
    · rintro (h | ⟨hrow, hpinned⟩)
      · exact Or.inl h
      · by_cases hid : s.id ∈ (w.loader.shown config
            (server.sensors (w.request config chunkSize 0))).map IoncSensor.id
        · exact Or.inl (server.mem_of_id_mem hholds hrow hid)
        · exact Or.inr ⟨hrow, hpinned, hid⟩
  · simp [LoadedFirst, IoncLoader.missingIds, hfilter]

theorem subscribeToSSE_nil (ids : List ℤ) : subscribeToSSE [] ids = ids := by
  unfold subscribeToSSE
  split_ifs with hempty hsame
  · exact hempty.symm
  · cases ids with
    | nil => rfl
    | cons id ids => simp at hsame
  · rfl

theorem firstLoader_spec (server : IoncServer) (config : IoncConfig) (chunkSize : ℕ)
    (pinnedIds : List ℤ) (f : IoncFilters) {v : IoncLoader}
    (hv : (new f).firstLoader server config chunkSize pinnedIds = v) :
    v.filters = f ∧ v.Holds server.rows ∧
      ∀ s, s ∈ v.allSensors ↔ (new f).LoadedFirst server config chunkSize pinnedIds s := by
  subst hv
  have hholds := response_holds server config pinnedIds ((new f).loader.loadSensors config)
    ((new f).request config chunkSize 0)
  simp only [firstLoader, ← mem_shown_or_missing_iff]
  generalize hmissing : (new f).loader.missingIds config
    (server.sensors ((new f).request config chunkSize 0)) pinnedIds = missing
  -- the filters are those of the new view, and so is what is shown and what is missing
  have hloading : (((new f).loader.loadSensors config).response config
      ((new f).request config chunkSize 0)
      (server.sensors ((new f).request config chunkSize 0)) pinnedIds).loading =
      if missing = [] then .idle else .pinned := by
    rw [← hmissing]
    rfl
  by_cases hnone : missing = []
  · rw [hloading, if_pos hnone, if_neg (by simp), hnone]
    refine ⟨rfl, hholds, fun s => ?_⟩
    simp only [List.not_mem_nil, and_false, or_false]
    rfl
  · rw [hloading, if_neg hnone, if_pos rfl]
    obtain ⟨hpinned, hmem⟩ := server.pinnedResponse_holds (server.get missing)
      (fun s hs => ((server.mem_get _ s).mp hs).1) hholds
    refine ⟨(IoncLoader.pinnedResponse_spec _).2.1.trans rfl, hpinned, fun s => ?_⟩
    rw [hmem, server.mem_get]
    rfl

/-- **What `loadSensors` does** for a new view: it loads these sensors and subscribes to them. -/
theorem loadSensors_new_spec (server : IoncServer) (config : IoncConfig) (pinnedIds : List ℤ)
    (f : IoncFilters) (hchunk : 0 < chunkSize) {w : IoncScroll}
    (hw : (new f).loadSensors server config chunkSize pinnedIds = w) :
    w.loader.filters = f ∧ w.loader.Holds server.rows ∧
      (∀ s, s ∈ w.loader.allSensors ↔ (new f).LoadedFirst server config chunkSize pinnedIds s) ∧
      (w.hasMore = true ↔ chunkSize ≤ (server.selected (f.request config)).length) ∧
      w.subscribed = w.loader.allSensors.map IoncSensor.id := by
  obtain ⟨hfilters, hholds, hmem⟩ := firstLoader_spec server config chunkSize pinnedIds f rfl
  have hlength := length_chunk_eq_iff server config (new f) 0 hchunk
  have hsubscribed : w.subscribed = subscribeToSSE [] (w.loader.allSensors.map IoncSensor.id) := by
    rw [← hw]
    rfl
  rw [subscribeToSSE_nil] at hsubscribed
  refine ⟨?_, ?_, ?_, ?_, hsubscribed⟩
  · rw [← hw]
    exact hfilters
  · rw [← hw]
    exact hholds
  · rw [← hw]
    exact hmem
  · have hmore : w.hasMore =
        decide ((server.sensors ((new f).request config chunkSize 0)).length = chunkSize) := by
      rw [← hw]
      rfl
    rw [hmore, decide_eq_true_iff, hlength, Nat.zero_add]
    rfl

/-- There are as many sensors as are loaded first. -/
theorem length_eq_countP (hholds : w.loader.Holds server.rows) {p : IoncSensor → Bool}
    (hmem : ∀ s, s ∈ w.loader.allSensors ↔ p s = true)
    (hrows : ∀ s, p s = true → s ∈ server.rows) :
    w.loader.allSensors.length = server.rows.countP p := by
  rw [List.countP_eq_length_filter]
  refine List.Perm.length_eq ?_
  rw [List.perm_ext_iff_of_nodup (hholds.nodup.of_map _) (server.nodup.of_map.filter _)]
  intro s
  rw [hmem, List.mem_filter]
  exact ⟨fun h => ⟨hrows s h, h⟩, fun h => h.2⟩

/-! ### Another chunk -/

theorem loadMoreSensors_of_not (h : w.hasMore = false) :
    w.loadMoreSensors server config chunkSize = w := by
  rw [loadMoreSensors, if_pos (by simp [h])]

/-- The sensors that there are stay in front, with the filters and what is subscribed. -/
theorem loadMoreSensors_keeps (server : IoncServer) (config : IoncConfig) (chunkSize : ℕ)
    (w : IoncScroll) :
    w.loader.allSensors <+: (w.loadMoreSensors server config chunkSize).loader.allSensors ∧
      (w.loadMoreSensors server config chunkSize).loader.filters = w.loader.filters ∧
      (w.loadMoreSensors server config chunkSize).subscribed = w.subscribed := by
  unfold loadMoreSensors
  split_ifs
  · exact ⟨List.prefix_rfl, rfl, rfl⟩
  · exact ⟨List.prefix_append _ _, rfl, rfl⟩

/-- There is more behind a full chunk. -/
theorem hasMore_loadMoreSensors (server : IoncServer) (config : IoncConfig) (h : w.hasMore = true)
    (hchunk : 0 < chunkSize) : (w.loadMoreSensors server config chunkSize).hasMore = true ↔
      w.loader.allSensors.length + chunkSize ≤
        (server.selected (w.loader.filters.request config)).length := by
  rw [← length_chunk_eq_iff server config w _ hchunk, loadMoreSensors, if_neg (by simp [h])]
  exact decide_eq_true_iff

/-- **A chunk of which all matching sensors are there** adds nothing. -/
theorem allSensors_loadMoreSensors (chunkSize : ℕ) (h : w.hasMore = true)
    (hthere : ∀ s ∈ w.matching server config, s ∈ w.loader.allSensors) :
    (w.loadMoreSensors server config chunkSize).loader.allSensors = w.loader.allSensors := by
  rw [loadMoreSensors, if_neg (by simp [h])]
  refine List.append_right_eq_self.mpr (List.filter_eq_nil_iff.mpr fun s hs => ?_)
  have hmem := hthere s (mem_shown_sensors hs).2
  simpa using ⟨s, hmem, rfl⟩

/-- After any number of chunks. -/
theorem iterate_keeps (server : IoncServer) (config : IoncConfig) (chunkSize : ℕ) (w : IoncScroll)
    (n : ℕ) :
    w.loader.allSensors <+: ((loadMoreSensors server config chunkSize)^[n] w).loader.allSensors ∧
      ((loadMoreSensors server config chunkSize)^[n] w).loader.filters = w.loader.filters ∧
      ((loadMoreSensors server config chunkSize)^[n] w).subscribed = w.subscribed := by
  induction n with
  | zero => exact ⟨List.prefix_rfl, rfl, rfl⟩
  | succ n ih =>
    rw [Function.iterate_succ_apply']
    obtain ⟨hall, hfilters, hsubscribed⟩ := loadMoreSensors_keeps server config chunkSize
      ((loadMoreSensors server config chunkSize)^[n] w)
    exact ⟨ih.1.trans hall, hfilters.trans ih.2.1, hsubscribed.trans ih.2.2⟩

/-- What is matching depends on the filters only. -/
theorem matching_congr {w w' : IoncScroll} (h : w.loader.filters = w'.loader.filters) :
    w.matching server config = w'.matching server config := by
  unfold matching IoncLoader.shown
  rw [h]

/-- **Only the sensors that `loadSensors` loads are subscribed**: a scroll that is complete has no
others. -/
theorem allSensors_of_complete {n : ℕ}
    (hsubscribed : w.subscribed = w.loader.allSensors.map IoncSensor.id)
    (hcomplete :
      ((loadMoreSensors server config chunkSize)^[n] w).Complete server config pinnedIds) :
    ((loadMoreSensors server config chunkSize)^[n] w).loader.allSensors = w.loader.allSensors := by
  obtain ⟨⟨added, hadded⟩, -, hsame⟩ := iterate_keeps server config chunkSize w n
  have hnodup := hcomplete.once
  have hids := hcomplete.subscribed
  rw [← hadded] at hnodup hids ⊢
  rw [List.map_append, List.nodup_append] at hnodup
  refine List.append_right_eq_self.mpr (List.eq_nil_iff_forall_not_mem.mpr fun s hs => ?_)
  have hid := hids s (List.mem_append_right _ hs)
  rw [hsame, hsubscribed] at hid
  exact hnodup.2.2 s.id hid s.id (List.mem_map_of_mem hs) rfl

/-- **A full chunk behind the sensors** that no call adds to: there is always more. -/
theorem hasMore_iterate (hchunk : 0 < chunkSize) {n : ℕ} (hmore : w.hasMore = true)
    (hfull : w.loader.allSensors.length + chunkSize ≤
      (server.selected (w.loader.filters.request config)).length)
    (hsame : ((loadMoreSensors server config chunkSize)^[n] w).loader.allSensors =
      w.loader.allSensors) :
    ((loadMoreSensors server config chunkSize)^[n] w).hasMore = true := by
  induction n with
  | zero => exact hmore
  | succ n ih =>
    rw [Function.iterate_succ_apply'] at hsame ⊢
    obtain ⟨hfront, hfilters, -⟩ := iterate_keeps server config chunkSize w n
    have hback := (loadMoreSensors_keeps server config chunkSize
      ((loadMoreSensors server config chunkSize)^[n] w)).1
    rw [hsame] at hback
    -- between the first and the last list there is no room
    have heq : ((loadMoreSensors server config chunkSize)^[n] w).loader.allSensors =
        w.loader.allSensors :=
      hback.eq_of_length_le hfront.length_le
    rw [hasMore_loadMoreSensors server config (ih heq) hchunk, heq, hfilters]
    exact hfull

/-! ### Complete scrolls -/

/-- How many sensors `loadSensors` loads. -/
def countFirst (server : IoncServer) (config : IoncConfig) (chunkSize : ℕ) (pinnedIds : List ℤ)
    (w : IoncScroll) : ℕ :=
  server.rows.countP fun s => w.LoadedFirst server config chunkSize pinnedIds s

theorem length_loadSensors (f : IoncFilters) (hholds : w.loader.Holds server.rows)
    (hmem : ∀ s, s ∈ w.loader.allSensors ↔
      (new f).LoadedFirst server config chunkSize pinnedIds s) :
    w.loader.allSensors.length = (new f).countFirst server config chunkSize pinnedIds := by
  refine length_eq_countP hholds (fun s => ?_) fun s hs => ?_
  · rw [hmem, decide_eq_true_iff]
  · rcases of_decide_eq_true hs with h | h
    · exact (mem_shown_sensors h).1
    · exact h.2.1

/-- A scroll that is complete has loaded all matching sensors first, and sees that there are no
more. -/
theorem loadedFirst_of_completes (server : IoncServer) (config : IoncConfig) (pinnedIds : List ℤ)
    (f : IoncFilters) (hchunk : 0 < chunkSize)
    (h : ((new f).loadSensors server config chunkSize pinnedIds).Completes server config chunkSize
      pinnedIds) :
    (server.selected (f.request config)).length < chunkSize ∨
      (server.selected (f.request config)).length <
        (new f).countFirst server config chunkSize pinnedIds + chunkSize ∧
      ∀ s ∈ (new f).matching server config,
        (new f).LoadedFirst server config chunkSize pinnedIds s := by
  obtain ⟨hfilters, hholds, hmem, hmore, hsubscribed⟩ :=
    loadSensors_new_spec server config pinnedIds f hchunk rfl
  generalize (new f).loadSensors server config chunkSize pinnedIds = w at *
  obtain ⟨n, hlast, hcomplete⟩ := h
  have hsame := allSensors_of_complete hsubscribed hcomplete
  rw [or_iff_not_imp_left, Nat.not_lt]
  intro hfull
  constructor
  · by_contra hnot
    rw [Nat.not_lt, ← length_loadSensors f hholds hmem, ← hfilters] at hnot
    have htrue := hasMore_iterate hchunk (hmore.mpr hfull) hnot hsame
    exact Bool.false_ne_true (hlast.symm.trans htrue)
  · intro s hs
    have hfilters' : ((loadMoreSensors server config chunkSize)^[n] w).loader.filters =
        (new f).loader.filters := (iterate_keeps server config chunkSize w n).2.1.trans hfilters
    have hlastMem := hcomplete.matching s (by rwa [matching_congr hfilters'])
    rw [hsame] at hlastMem
    exact (hmem s).mp hlastMem

/-- The sensors that `loadSensors` loads are complete if all matching ones are among them. -/
theorem complete_of_loadedFirst {f : IoncFilters}
    (honce : (w.loader.allSensors.map IoncSensor.id).Nodup) (hfilters : w.loader.filters = f)
    (hmem : ∀ s, s ∈ w.loader.allSensors ↔
      (new f).LoadedFirst server config chunkSize pinnedIds s)
    (hsubscribed : ∀ s ∈ w.loader.allSensors, s.id ∈ w.subscribed)
    (hfirst : ∀ s ∈ (new f).matching server config,
      (new f).LoadedFirst server config chunkSize pinnedIds s) :
    w.Complete server config pinnedIds := by
  refine ⟨fun s hs => ?_, fun hfilter s hs hpinned => ?_, honce, hsubscribed⟩
  · have heq : w.loader.filters = (new f).loader.filters := hfilters
    rw [matching_congr heq] at hs
    exact (hmem s).mpr (hfirst s hs)
  · rw [hfilters] at hfilter
    exact (hmem s).mpr (Or.inr ⟨hfilter, hs, hpinned⟩)

/-- A list that is shorter than a chunk is loaded first. -/
theorem loadedFirst_of_length_lt (f : IoncFilters)
    (h : (server.selected (f.request config)).length < chunkSize) :
    ∀ s ∈ (new f).matching server config,
      (new f).LoadedFirst server config chunkSize pinnedIds s := by
  intro s hs
  have hall : server.sensors ((new f).request config chunkSize 0) =
      server.selected (f.request config) := List.take_of_length_le h.le
  left
  rw [hall]
  exact hs

/-- If all matching sensors are loaded first, and the next chunk is not full, the scroll ends. -/
theorem completes_of_loadedFirst (server : IoncServer) (config : IoncConfig) (pinnedIds : List ℤ)
    (f : IoncFilters) (hchunk : 0 < chunkSize)
    (hlength : (server.selected (f.request config)).length < chunkSize ∨
      (server.selected (f.request config)).length <
        (new f).countFirst server config chunkSize pinnedIds + chunkSize)
    (hfirst : ∀ s ∈ (new f).matching server config,
      (new f).LoadedFirst server config chunkSize pinnedIds s) :
    ((new f).loadSensors server config chunkSize pinnedIds).Completes server config chunkSize
      pinnedIds := by
  obtain ⟨hfilters, hholds, hmem, hmore, hsubscribed⟩ :=
    loadSensors_new_spec server config pinnedIds f hchunk rfl
  generalize (new f).loadSensors server config chunkSize pinnedIds = w at *
  have hids : ∀ s ∈ w.loader.allSensors, s.id ∈ w.subscribed := by
    intro s hs
    rw [hsubscribed]
    exact List.mem_map_of_mem hs
  by_cases hw : w.hasMore = true
  · -- one more chunk, which is not full and adds nothing
    have hle := hmore.mp hw
    have hthere : ∀ s ∈ w.matching server config, s ∈ w.loader.allSensors :=
      (complete_of_loadedFirst hholds.nodup hfilters hmem hids hfirst).matching
    have hsame := allSensors_loadMoreSensors chunkSize hw hthere
    obtain ⟨-, hfilters', hsubscribed'⟩ := loadMoreSensors_keeps server config chunkSize w
    have hlast : (w.loadMoreSensors server config chunkSize).hasMore = false := by
      rw [← Bool.not_eq_true, hasMore_loadMoreSensors server config hw hchunk, hfilters,
        length_loadSensors f hholds hmem]
      omega
    refine ⟨1, hlast, complete_of_loadedFirst ?_ (hfilters'.trans hfilters) ?_ ?_ hfirst⟩
    · show ((w.loadMoreSensors server config chunkSize).loader.allSensors.map IoncSensor.id).Nodup
      rw [hsame]
      exact hholds.nodup
    · show ∀ s, s ∈ (w.loadMoreSensors server config chunkSize).loader.allSensors ↔ _
      rw [hsame]
      exact hmem
    · show ∀ s ∈ (w.loadMoreSensors server config chunkSize).loader.allSensors,
        s.id ∈ (w.loadMoreSensors server config chunkSize).subscribed
      rw [hsame, hsubscribed']
      exact hids
  · rw [Bool.not_eq_true] at hw
    exact ⟨0, hw, complete_of_loadedFirst hholds.nodup hfilters hmem hids hfirst⟩

end IoncScroll

/-! ### One sensor more than a chunk -/

/-- A server with these sensors. -/
def IoncServer.ofRows (rows : List IoncSensor) (nodup : (rows.map IoncSensor.id).Nodup) :
    IoncServer where
  rows := rows
  nodup := nodup
  search text s := text.toList <:+: s.name.toList
  ofType iotype s := s.type = iotype
  get ids := rows.filter fun s => s.id ∈ ids
  mem_get ids s := by simp

/-- Sensors with the ids below a number. -/
def IoncServer.upTo (n : ℕ) : IoncServer :=
  .ofRows ((List.range n).map fun i : ℕ => ⟨i, "DI_S", "DI"⟩) <| by
    rw [List.map_map]
    exact List.nodup_range.map fun _ _ h => Int.ofNat.inj h

/-- **It fails** where there is one sensor more than a chunk has: it is loaded by the second request
and not subscribed. -/
theorem not_completes_secondChunk :
    ¬ ∀ (server : IoncServer) config chunkSize pinnedIds f, 0 < chunkSize →
      ((IoncScroll.new f).loadSensors server config chunkSize pinnedIds).Completes server config
        chunkSize pinnedIds := by
  intro h
  have hcompletes := h (.upTo 201) serverFilter 200 [] ⟨"", "all"⟩ (by decide)
  rcases IoncScroll.loadedFirst_of_completes _ _ _ _ (by decide) hcompletes with hlt | ⟨-, hfirst⟩
  · exact absurd hlt (by decide +kernel)
  · exact absurd (hfirst ⟨200, "DI_S", "DI"⟩ (by decide +kernel)) (by decide +kernel)

/-! ### The main theorem -/

/-- **The scroll ends and is complete** exactly if the server has fewer rows than a chunk, or all
matching sensors are loaded first and the rows end before a chunk behind as many. -/
theorem completes_iff (server : IoncServer) (config : IoncConfig) (chunkSize : ℕ)
    (pinnedIds : List ℤ) (f : IoncFilters) (hchunk : 0 < chunkSize) :
    ((IoncScroll.new f).loadSensors server config chunkSize pinnedIds).Completes server config
      chunkSize pinnedIds ↔
    (server.selected (f.request config)).length < chunkSize ∨
      (server.selected (f.request config)).length <
        (IoncScroll.new f).countFirst server config chunkSize pinnedIds + chunkSize ∧
      ∀ s ∈ (IoncScroll.new f).matching server config,
        (IoncScroll.new f).LoadedFirst server config chunkSize pinnedIds s := by
  constructor
  · exact IoncScroll.loadedFirst_of_completes server config pinnedIds f hchunk
  · rintro (hlt | ⟨hlt, hfirst⟩)
    · exact IoncScroll.completes_of_loadedFirst server config pinnedIds f hchunk (Or.inl hlt)
        (IoncScroll.loadedFirst_of_length_lt f hlt)
    · exact IoncScroll.completes_of_loadedFirst server config pinnedIds f hchunk (Or.inr hlt) hfirst

/-- Two sensors, of which the second is pinned, and chunks of one. -/
theorem completes_iff_pinnedSecond :
    ((IoncScroll.new ⟨"", "all"⟩).loadSensors (.upTo 2) serverFilter 1 [1]).Completes (.upTo 2)
      serverFilter 1 [1] ↔
    ((IoncServer.upTo 2).selected (IoncFilters.request ⟨"", "all"⟩ serverFilter)).length < 1 ∨
      ((IoncServer.upTo 2).selected (IoncFilters.request ⟨"", "all"⟩ serverFilter)).length <
        (IoncScroll.new ⟨"", "all"⟩).countFirst (.upTo 2) serverFilter 1 [1] + 1 ∧
      ∀ s ∈ (IoncScroll.new ⟨"", "all"⟩).matching (.upTo 2) serverFilter,
        (IoncScroll.new ⟨"", "all"⟩).LoadedFirst (.upTo 2) serverFilter 1 [1] s :=
  completes_iff (.upTo 2) serverFilter 1 [1] ⟨"", "all"⟩ (by decide)

/-! ### Without pinned sensors and filters of the page -/

namespace IoncScroll

variable {server : IoncServer} {config : IoncConfig} {chunkSize : ℕ} {w : IoncScroll}

/-- **The rows so far**: the sensors are the first rows, and all of them if there is no more. -/
structure InOrder (w : IoncScroll) (rows : List IoncSensor) : Prop where
  front : w.loader.allSensors <+: rows
  all : w.hasMore = false → w.loader.allSensors = rows

/-- Where the server filters, another chunk is the rows that follow. -/
theorem allSensors_loadMoreSensors_of_front (chunkSize : ℕ) (hconfig : config.useUIFilter = false)
    {rest : List IoncSensor} (hmore : w.hasMore = true)
    (hrest : w.loader.allSensors ++ rest = server.selected (w.loader.filters.request config)) :
    (w.loadMoreSensors server config chunkSize).loader.allSensors =
      w.loader.allSensors ++ rest.take chunkSize := by
  have hchunk : server.sensors (w.request config chunkSize w.loader.allSensors.length) =
      rest.take chunkSize := by
    show ((server.selected (w.loader.filters.request config)).drop
      w.loader.allSensors.length).take chunkSize = _
    rw [← hrest, List.drop_left]
  have hnodup := server.nodup_selected (w.loader.filters.request config)
  rw [← hrest, List.map_append, List.nodup_append] at hnodup
  rw [loadMoreSensors, if_neg (by simp [hmore])]
  show w.loader.allSensors ++ (w.loader.shown config (server.sensors _)).filter _ = _
  rw [hchunk, IoncLoader.shown, if_neg (by simp [hconfig])]
  refine congrArg _ (List.filter_eq_self.mpr fun s hs => decide_eq_true fun hid => ?_)
  exact hnodup.2.2 s.id hid s.id (List.mem_map_of_mem (List.mem_of_mem_take hs)) rfl

theorem inOrder_loadMoreSensors (hconfig : config.useUIFilter = false) (hchunk : 0 < chunkSize)
    (hw : w.InOrder (server.selected (w.loader.filters.request config))) :
    (w.loadMoreSensors server config chunkSize).InOrder
      (server.selected (w.loader.filters.request config)) := by
  by_cases hmore : w.hasMore = true
  · obtain ⟨rest, hrest⟩ := hw.front
    constructor
    · rw [allSensors_loadMoreSensors_of_front chunkSize hconfig hmore hrest, ← hrest]
      exact List.prefix_append_right_inj _ |>.mpr (List.take_prefix _ _)
    · rw [allSensors_loadMoreSensors_of_front chunkSize hconfig hmore hrest, ← Bool.not_eq_true,
        hasMore_loadMoreSensors server config hmore hchunk, ← hrest, List.length_append]
      intro hlast
      rw [List.take_of_length_le (by omega)]
  · rwa [loadMoreSensors_of_not (Bool.not_eq_true _ ▸ hmore)]

/-- **All rows arrive** in the end: every chunk but the last moves the offset on. -/
theorem exists_iterate_of_inOrder (hconfig : config.useUIFilter = false) (hchunk : 0 < chunkSize)
    {rows : List IoncSensor} (hw : w.InOrder rows)
    (hrows : server.selected (w.loader.filters.request config) = rows) :
    ∃ n, ((loadMoreSensors server config chunkSize)^[n] w).hasMore = false ∧
      ((loadMoreSensors server config chunkSize)^[n] w).loader.allSensors = rows := by
  subst hrows
  generalize hleft : (server.selected (w.loader.filters.request config)).length -
    w.loader.allSensors.length = left
  induction left using Nat.strong_induction_on generalizing w with
  | _ left ih =>
    by_cases hmore : w.hasMore = true
    · have hfilters := (loadMoreSensors_keeps server config chunkSize w).2.1
      have hnext := inOrder_loadMoreSensors hconfig hchunk hw
      by_cases hlast : (w.loadMoreSensors server config chunkSize).hasMore = true
      · obtain ⟨rest, hrest⟩ := hw.front
        have hfull := (hasMore_loadMoreSensors server config hmore hchunk).mp hlast
        have hall := allSensors_loadMoreSensors_of_front chunkSize hconfig hmore hrest
        have hlt : (server.selected (w.loader.filters.request config)).length -
            (w.loadMoreSensors server config chunkSize).loader.allSensors.length < left := by
          rw [hall, List.length_append, List.length_take]
          rw [← hrest, List.length_append] at hfull hleft ⊢
          omega
        rw [← hfilters] at hnext hlt
        obtain ⟨n, hn⟩ := ih _ hlt hnext rfl
        rw [hfilters] at hn
        exact ⟨n + 1, hn⟩
      · rw [Bool.not_eq_true] at hlast
        exact ⟨1, hlast, hnext.all hlast⟩
    · rw [Bool.not_eq_true] at hmore
      exact ⟨0, hmore, hw.all hmore⟩

/-- **Where the server filters and no pinned sensor is fetched**, the scroll ends with the rows that
are selected, as the server has them. -/
theorem exists_iterate_allSensors (server : IoncServer) (pinnedIds : List ℤ) (f : IoncFilters)
    (hconfig : config.useUIFilter = false) (hchunk : 0 < chunkSize)
    (hpinned : (new f).loader.missingIds config
      (server.sensors ((new f).request config chunkSize 0)) pinnedIds = []) :
    ∃ n last, (loadMoreSensors server config chunkSize)^[n]
        ((new f).loadSensors server config chunkSize pinnedIds) = last ∧
      last.hasMore = false ∧ last.loader.allSensors = server.selected (f.request config) := by
  obtain ⟨hfilters, -, -, hmore, -⟩ := loadSensors_new_spec server config pinnedIds f hchunk rfl
  have hfirst : ((new f).loadSensors server config chunkSize pinnedIds).loader.allSensors =
      (server.selected (f.request config)).take chunkSize := by
    show ((new f).firstLoader server config chunkSize pinnedIds).allSensors = _
    rw [firstLoader, if_neg]
    · show (new f).loader.shown config (server.sensors _) = _
      rw [IoncLoader.shown, if_neg (by simp [hconfig])]
      rfl
    · show ¬ (if (new f).loader.missingIds config _ pinnedIds = [] then IoncLoading.idle
        else IoncLoading.pinned) = IoncLoading.pinned
      rw [if_pos hpinned]
      simp
  have hinOrder : ((new f).loadSensors server config chunkSize pinnedIds).InOrder
      (server.selected (f.request config)) := by
    constructor
    · rw [hfirst]
      exact List.take_prefix _ _
    · rw [← Bool.not_eq_true, hmore, hfirst]
      intro hlast
      rw [List.take_of_length_le (by omega)]
  obtain ⟨n, hn⟩ := exists_iterate_of_inOrder hconfig hchunk hinOrder (by rw [hfilters])
  exact ⟨n, _, rfl, hn⟩

end IoncScroll

end UnisetPanel
