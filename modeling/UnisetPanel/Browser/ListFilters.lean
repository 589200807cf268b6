/-
  The filters of the list views of the browser: the journal (`35-journal.js`)
  and the sensor table of an IONC object (`20-ionc-renderer.js`).

  A handler sets the filters and calls the loader, and the loader returns at
  once while a request is in flight.  Nothing calls it again when the response
  is there, so a filter that was set in between has no effect
  (`not_showsFilters`).  The views show the filters that are set exactly in the
  runs in which a request ends only while the filters are those it was built
  with (`showsFilters_iff`).

  The journal also keeps its rows when a request fails, while the sensor table
  drops them before it asks.  A sensor table that filters on the page does so
  when the response arrives; the pinned sensors it then waits for are the only
  time in which a change is lost.
-/
import UnisetPanel.Machine
import Mathlib.Data.Int.Notation
import Mathlib.Data.List.Infix
import Mathlib.Tactic.Common

namespace UnisetPanel

/-! ### The journal -/

/-- `this.filters`; the times are in milliseconds, as `toISOString` writes them. -/
structure JournalFilters where
  mtype : String
  mgroup : String
  search : String
  fromTime : Option ℤ
  toTime : Option ℤ
  deriving DecidableEq, Repr

/-- The parameters of a request; none where one is not set. -/
structure JournalRequest where
  limit : ℕ
  offset : ℕ
  mtype : Option String
  mgroup : Option String
  search : Option String
  fromTime : Option ℤ
  toTime : Option ℤ
  deriving DecidableEq, Repr

/-- A call of `loadMessages` that waits for its response. -/
structure JournalCall where
  request : JournalRequest
  append : Bool
  deriving DecidableEq, Repr

namespace JournalFilters

/-- The filters of a new view. -/
def new : JournalFilters := ⟨"all", "all", "", none, none⟩

/-- `multipliers`. -/
def multipliers : List (String × ℤ) :=
  let minute := 60 * 1000
  [("15m", 15 * minute), ("1h", 60 * minute), ("3h", 3 * 60 * minute), ("10h", 10 * 60 * minute),
    ("1d", 24 * 60 * minute), ("3d", 3 * 24 * 60 * minute), ("1w", 7 * 24 * 60 * minute),
    ("1M", 30 * 24 * 60 * minute)]

/-- `setTimeRange`. -/
def setTimeRange (f : JournalFilters) (range : String) (now : ℤ) : JournalFilters :=
  if range = "all" then { f with fromTime := none, toTime := none }
  else { f with fromTime := (multipliers.lookup range).map (now - ·), toTime := none }

/-- The request that `loadMessages` builds. -/
def request (f : JournalFilters) (offset : ℕ) : JournalRequest where
  limit := 100
  offset := offset
  mtype := if f.mtype ≠ "all" then some f.mtype else none
  mgroup := if f.mgroup ≠ "all" then some f.mgroup else none
  search := if f.search ≠ "" then some f.search else none
  fromTime := f.fromTime
  toTime := f.toTime

end JournalFilters

/-- What `loadMessages` and the handlers of the filters use of `JournalRenderer`. -/
structure JournalLoader (μ : Type*) where
  filters : JournalFilters
  /-- the text in the search field -/
  searchInput : String
  /-- `searchDebounceTimer` is running -/
  searchDebounce : Bool
  messages : List μ
  offset : ℕ
  total : ℕ
  hasMore : Bool
  /-- the call in flight; `isLoading` is whether there is one -/
  call : Option JournalCall
  /-- the requests whose responses gave `messages` -/
  requests : List JournalRequest

/-- What happens to a journal view. -/
inductive JournalLoaderAction (μ : Type*) where
  /-- a text is typed into the search field -/
  | input (text : String)
  /-- `searchDebounceTimer` fires -/
  | debounce
  /-- Escape in the search field, or its clear button -/
  | clearSearch
  | mtype (value : String)
  | mgroup (value : String)
  | timeRange (range : String) (now : ℤ)
  /-- `initialize` loads -/
  | load
  /-- the list is scrolled to its end -/
  | loadMore
  | response (messages : List μ) (total : ℕ)
  | failure

namespace JournalLoader

variable {μ : Type*} (v : JournalLoader μ)

/-- `constructor`, and the time range that `initialize` sets. -/
def new (now : ℤ) : JournalLoader μ where
  filters := JournalFilters.new.setTimeRange "1h" now
  searchInput := ""
  searchDebounce := false
  messages := []
  offset := 0
  total := 0
  hasMore := true
  call := none
  requests := []

/-- `loadMessages`, up to its request. -/
def loadMessages (append : Bool) : JournalLoader μ :=
  if v.call.isSome then v
  else { v with call := some ⟨v.filters.request (if append then v.offset else 0), append⟩ }

/-- A handler sets the filters and loads. -/
def setFilters (filters : JournalFilters) : JournalLoader μ :=
  { v with filters := filters, offset := 0 }.loadMessages false

/-- `loadMore`. -/
def loadMore : JournalLoader μ :=
  if v.call.isSome || !v.hasMore then v
  else { v with offset := v.messages.length }.loadMessages true

/-- `loadMessages`, from its response on. -/
def response (call : JournalCall) (messages : List μ) (total : ℕ) : JournalLoader μ :=
  let v :=
    if call.append then
      { v with messages := v.messages ++ messages, requests := v.requests ++ [call.request] }
    else { v with messages := messages, offset := 0, requests := [call.request] }
  { v with total := total, hasMore := v.messages.length < total, call := none }

/-- One step. -/
def step : JournalLoaderAction μ → Option (JournalLoader μ)
  | .input text => some { v with searchInput := text, searchDebounce := true }
  | .debounce =>
    if v.searchDebounce then
      some ({ v with searchDebounce := false }.setFilters
        { v.filters with search := v.searchInput })
    else none
  | .clearSearch => some ({ v with searchInput := "" }.setFilters { v.filters with search := "" })
  | .mtype value => some (v.setFilters { v.filters with mtype := value })
  | .mgroup value => some (v.setFilters { v.filters with mgroup := value })
  | .timeRange range now => some (v.setFilters (v.filters.setTimeRange range now))
  | .load => some (v.loadMessages false)
  | .loadMore => some v.loadMore
  | .response messages total => v.call.map fun call => v.response call messages total
  -- the rows stay
  | .failure => v.call.map fun _ => { v with call := none }

/-- The runs of a view that is opened at the time `now`. -/
def machine (now : ℤ) : Machine (JournalLoader μ) (JournalLoaderAction μ) where
  init := .new now
  step := step

/-- **The view shows the current filters**: while no request is in flight, its rows come from
responses to requests as the filters that are set build them. -/
def ShowsFilters : Prop := v.call = none → ∀ r ∈ v.requests, r = v.filters.request r.offset

/-- A response arrives only while the filters are those its request was built with, and a request
fails only while the rows are of the filters that are set. -/
def Timely : JournalLoaderAction μ → Prop
  | .response _ _ => ∀ call ∈ v.call, call.request = v.filters.request call.request.offset
  | .failure => ∀ r ∈ v.requests, r = v.filters.request r.offset
  | .input _ | .debounce | .clearSearch | .mtype _ | .mgroup _ | .timeRange _ _ | .load
  | .loadMore => True

end JournalLoader

/-! ### The sensor table -/

/-- `this.filter` and `this.typeFilter`. -/
structure IoncFilters where
  filter : String
  typeFilter : String
  deriving DecidableEq, Repr

/-- A sensor of the table. -/
structure IoncSensor where
  id : ℤ
  name : String
  type : String
  deriving DecidableEq, Repr

/-- The parameters of a request; none where one is not set. -/
structure IoncRequest where
  offset : ℕ
  limit : ℕ
  search : Option String
  iotype : Option String
  deriving DecidableEq, Repr

/-- What the rows of a load are chosen by: the request, and the filters of the page if it
filters. -/
abbrev IoncSelection := IoncRequest × Option IoncFilters

/-- What a view of a browser is given: whether it filters on the page (`ioncUISensorsFilter`), and
the lower case of a text. -/
structure IoncConfig where
  useUIFilter : Bool
  toLowerCase : String → String

/-- What `loadSensors` waits for; `loading` is whether there is something. -/
inductive IoncLoading where
  | idle
  | sensors (request : IoncRequest)
  | pinned
  deriving DecidableEq, Repr

/-- The characters that `trim` takes off. -/
def isWhiteSpace (c : Char) : Bool :=
  (9 ≤ c.toNat && c.toNat ≤ 13) || c.toNat ∈ [0x20, 0xA0, 0x1680, 0x202F, 0x205F, 0x3000, 0xFEFF] ||
    (0x2000 ≤ c.toNat && c.toNat ≤ 0x200A) || c.toNat = 0x2028 || c.toNat = 0x2029

/-- `trim`. -/
def trim (s : String) : String :=
  String.ofList ((s.toList.dropWhile isWhiteSpace).reverse.dropWhile isWhiteSpace).reverse

namespace IoncFilters

variable (f : IoncFilters) (config : IoncConfig)

/-- The request that `loadSensors` builds. -/
def request : IoncRequest where
  offset := 0
  limit := 200
  search := if !config.useUIFilter && f.filter ≠ "" then some f.filter else none
  iotype := if !config.useUIFilter && f.typeFilter ≠ "" && f.typeFilter ≠ "all" then
    some f.typeFilter else none

/-- `applyLocalFilters`. -/
def applyLocalFilters (sensors : List IoncSensor) : List IoncSensor :=
  let includes (text part : String) : Bool := part.toList <:+: text.toList
  let filterLower := config.toLowerCase f.filter
  let result := if f.filter ≠ "" then
      sensors.filter fun s =>
        includes (config.toLowerCase s.name) filterLower || includes (toString s.id) filterLower
    else sensors
  if f.typeFilter ≠ "all" then result.filter fun s => s.type = f.typeFilter else result

/-- What the rows are chosen by where these filters are set throughout. -/
def selection : IoncSelection :=
  (f.request config, if config.useUIFilter then some f else none)

end IoncFilters

/-- What `loadSensors` and the handlers of the filters use of `IONotifyControllerRenderer`. -/
structure IoncLoader where
  filters : IoncFilters
  /-- the text in the filter field -/
  filterInput : String
  /-- `filterDebounce` is running -/
  filterDebounce : Bool
  loading : IoncLoading
  allSensors : List IoncSensor
  /-- the keys of `sensorMap` -/
  sensorMap : List ℤ
  /-- what the sensors were chosen by, if there are some -/
  selection : Option IoncSelection

/-- What happens to a sensor table. -/
inductive IoncLoaderAction where
  /-- a text is typed into the filter field -/
  | input (text : String)
  /-- `filterDebounce` fires -/
  | debounce
  /-- Escape in the filter field -/
  | inputEsc
  /-- Escape in the container -/
  | containerEsc
  | typeFilter (value : String)
  /-- `initialize` loads -/
  | load
  /-- the sensors arrive while these are pinned -/
  | response (sensors : List IoncSensor) (pinnedIds : List ℤ)
  | failure
  /-- the pinned sensors arrive, or none on an error -/
  | pinnedResponse (sensors : List IoncSensor)

namespace IoncLoader

variable (v : IoncLoader) (config : IoncConfig)

/-- `constructor`. -/
def new : IoncLoader := ⟨⟨"", "all"⟩, "", false, .idle, [], [], none⟩

/-- `loadSensors`, up to its request. -/
def loadSensors : IoncLoader :=
  if v.loading ≠ .idle then v
  else { v with loading := .sensors (v.filters.request config), allSensors := [], selection := none }

/-- A handler sets the filters and loads. -/
def setFilters (filters : IoncFilters) : IoncLoader :=
  { v with filters := filters }.loadSensors config

/-- The sensors of a response that are shown. -/
def shown (sensors : List IoncSensor) : List IoncSensor :=
  if config.useUIFilter then v.filters.applyLocalFilters config sensors else sensors

/-- The pinned sensors that a response leaves to be fetched. -/
def missingIds (sensors : List IoncSensor) (pinnedIds : List ℤ) : List ℤ :=
  if v.filters.filter = "" then
    pinnedIds.filter (· ∉ (v.shown config sensors).map IoncSensor.id)
  else []

/-- `loadSensors`, from its response up to the request of `loadPinnedSensors`. -/
def response (request : IoncRequest) (sensors : List IoncSensor) (pinnedIds : List ℤ) :
    IoncLoader :=
  { v with
    allSensors := v.shown config sensors
    sensorMap := (v.shown config sensors).map IoncSensor.id
    selection := some (request, if config.useUIFilter then some v.filters else none)
    loading := if v.missingIds config sensors pinnedIds = [] then .idle else .pinned }

/-- `loadPinnedSensors`, from its response on. -/
def pinnedResponse (sensors : List IoncSensor) : IoncLoader :=
  let v := sensors.foldl (fun (v : IoncLoader) sensor =>
    if sensor.id ∈ v.sensorMap then v
    else { v with
      allSensors := sensor :: v.allSensors, sensorMap := sensor.id :: v.sensorMap }) v
  { v with loading := .idle }

/-- One step. -/
def step : IoncLoaderAction → Option IoncLoader
  | .input text => some { v with filterInput := text, filterDebounce := true }
  | .debounce =>
    if v.filterDebounce then
      some ({ v with filterDebounce := false }.setFilters config
        { v.filters with filter := trim v.filterInput })
    else none
  | .inputEsc =>
    if v.filterInput ≠ "" then
      some ({ v with filterInput := "" }.setFilters config { v.filters with filter := "" })
    else some v
  | .containerEsc =>
    if v.filters.filter ≠ "" then
      some ({ v with filterInput := "" }.setFilters config { v.filters with filter := "" })
    else some v
  | .typeFilter value => some (v.setFilters config { v.filters with typeFilter := value })
  | .load => some (v.loadSensors config)
  | .response sensors pinnedIds =>
    match v.loading with
    | .sensors request => some (v.response config request sensors pinnedIds)
    | .idle | .pinned => none
  | .failure =>
    match v.loading with
    | .sensors _ => some { v with loading := .idle }
    | .idle | .pinned => none
  | .pinnedResponse sensors => if v.loading = .pinned then some (v.pinnedResponse sensors) else none

/-- The runs of a sensor table. -/
def machine : Machine IoncLoader IoncLoaderAction where
  init := .new
  step v := v.step config

/-- **The table shows the current filters**: while no request is in flight, its rows were chosen by
the filters that are set. -/
def ShowsFilters : Prop := v.loading = .idle → ∀ x ∈ v.selection, x = v.filters.selection config

/-- The response that ends a load arrives only while the filters are those the rows are chosen
by. -/
def Timely : IoncLoaderAction → Prop
  | .response sensors pinnedIds => ∀ request, v.loading = .sensors request →
      v.missingIds config sensors pinnedIds = [] → request = v.filters.request config
  | .pinnedResponse _ => ∀ x ∈ v.selection, x = v.filters.selection config
  | .input _ | .debounce | .inputEsc | .containerEsc | .typeFilter _ | .load | .failure => True

end IoncLoader

/-! ### A change while a request is in flight -/

/-- The journal: another type is chosen before the messages arrive. -/
def mtypeInFlight : List (JournalLoaderAction String) :=
  [.load, .mtype "Alarm", .response ["text"] 1]

/-- The sensor table: another type is chosen before the sensors arrive. -/
def typeInFlight : List IoncLoaderAction :=
  [.load, .typeFilter "AI", .response [⟨1, "DI1_S", "DI"⟩] []]

/-- A browser in which the server filters; the lower case is that of the ASCII letters. -/
def serverFilter : IoncConfig := ⟨false, String.toLower⟩

/-- **It fails** in both views: the rows that arrive are not of the type that is set, and nothing is
in flight. -/
theorem not_showsFilters :
    (¬ ∀ as s, (JournalLoader.machine (μ := String) 0).run (.new 0) as = some s →
      s.ShowsFilters) ∧
    ¬ ∀ as s, (IoncLoader.machine serverFilter).run .new as = some s →
      s.ShowsFilters serverFilter := by
  constructor
  · intro h
    exact absurd (h mtypeInFlight _ rfl rfl _ (List.mem_singleton_self _)) (by decide)
  · intro h
    exact absurd (h typeInFlight _ rfl rfl _ rfl) (by decide)

/-! ### The journal, one step -/

namespace JournalLoader

variable {μ : Type*} {v : JournalLoader μ}

/-- The requests of a list are of one set of filters: as the call in flight is, if it appends. -/
def OneSelection (v : JournalLoader μ) : Prop :=
  ∀ call ∈ v.call, ∃ f : JournalFilters, call.request = f.request call.request.offset ∧
    (call.append = true → ∀ r ∈ v.requests, r = f.request r.offset)

/-- Two filters that build one request build the same at every offset. -/
theorem request_offset {f g : JournalFilters} {n : ℕ} (h : f.request n = g.request n) (m : ℕ) :
    f.request m = g.request m := by
  simpa [JournalFilters.request] using h

theorem loadMessages_of_busy (append : Bool) (h : v.call.isSome = true) :
    v.loadMessages append = v := by
  simp [loadMessages, h]

theorem loadMessages_of_idle (append : Bool) (h : v.call = none) : v.loadMessages append =
    { v with call := some ⟨v.filters.request (if append then v.offset else 0), append⟩ } := by
  simp [loadMessages, h]

theorem oneSelection_loadMessages (append : Bool) (hone : v.OneSelection)
    (hv : append = true → v.ShowsFilters) : (v.loadMessages append).OneSelection := by
  by_cases hcall : v.call = none
  · rw [loadMessages_of_idle append hcall]
    intro call hmem
    obtain rfl := Option.some.inj hmem
    exact ⟨v.filters, rfl, fun happend => hv happend hcall⟩
  · rw [loadMessages_of_busy append (Option.isSome_iff_ne_none.mpr hcall)]
    exact hone

/-- After a call there is one in flight. -/
theorem showsFilters_loadMessages (append : Bool) : (v.loadMessages append).ShowsFilters := by
  by_cases hcall : v.call = none
  · rw [loadMessages_of_idle append hcall]
    intro hnone
    simp at hnone
  · rw [loadMessages_of_busy append (Option.isSome_iff_ne_none.mpr hcall)]
    intro hnone
    exact absurd hnone hcall

theorem setFilters_spec (filters : JournalFilters) (hone : v.OneSelection) :
    (v.setFilters filters).OneSelection ∧ (v.setFilters filters).ShowsFilters := by
  have hset : OneSelection { v with filters := filters, offset := 0 } := hone
  exact ⟨oneSelection_loadMessages false hset (by simp), showsFilters_loadMessages false⟩

theorem loadMore_spec (hone : v.OneSelection) (hv : v.ShowsFilters) :
    v.loadMore.OneSelection ∧ v.loadMore.ShowsFilters := by
  unfold loadMore
  split_ifs with hbusy
  · exact ⟨hone, hv⟩
  · exact ⟨oneSelection_loadMessages true hone fun _ => hv, showsFilters_loadMessages true⟩

/-- **A response**: its rows and those it is appended to are of the filters that are set exactly if
its request is. -/
theorem showsFilters_response {call : JournalCall} (messages : List μ) (total : ℕ)
    (hone : v.OneSelection) (hcall : v.call = some call) :
    (v.response call messages total).ShowsFilters ↔
      call.request = v.filters.request call.request.offset := by
  obtain ⟨f, hrequest, hrows⟩ := hone call hcall
  have hfilters : (v.response call messages total).filters = v.filters := by
    simp only [response, apply_ite JournalLoader.filters, ite_self]
  have hnone : (v.response call messages total).call = none := rfl
  by_cases happend : call.append = true
  · have hsource : (v.response call messages total).requests = v.requests ++ [call.request] := by
      simp [response, happend]
    simp only [ShowsFilters, hsource, hfilters, hnone, true_implies]
    constructor
    · intro h
      exact h _ (List.mem_append_right _ (List.mem_singleton_self _))
    · intro h r hr
      rcases List.mem_append.mp hr with hr | hr
      · rw [hrows happend r hr]
        exact request_offset (hrequest.symm.trans h) _
      · rw [List.mem_singleton.mp hr]
        exact h
  · have hsource : (v.response call messages total).requests = [call.request] := by
      simp [response, happend]
    simp only [ShowsFilters, hsource, hfilters, hnone, true_implies, List.mem_singleton]
    constructor
    · intro h
      exact h _ rfl
    · intro h r hr
      rw [hr]
      exact h

/-- What one step does. -/
theorem step_spec {w : JournalLoader μ} (a : JournalLoaderAction μ) (hone : v.OneSelection)
    (hv : v.ShowsFilters) (hstep : v.step a = some w) :
    w.OneSelection ∧ (w.ShowsFilters ↔ v.Timely a) := by
  -- a handler leaves a call in flight
  have hset : ∀ (u : JournalLoader μ) filters, u.OneSelection →
      (u.setFilters filters).OneSelection ∧ ((u.setFilters filters).ShowsFilters ↔ True) :=
    fun u filters hu => ⟨(setFilters_spec filters hu).1,
      iff_of_true (setFilters_spec filters hu).2 trivial⟩
  cases a with
  | input text =>
    obtain rfl := Option.some.inj hstep
    exact ⟨hone, iff_of_true hv trivial⟩
  | debounce =>
    simp only [step] at hstep
    split_ifs at hstep with htimer
    obtain rfl := Option.some.inj hstep
    exact hset { v with searchDebounce := false } _ hone
  | clearSearch =>
    obtain rfl := Option.some.inj hstep
    exact hset { v with searchInput := "" } _ hone
  | mtype value => exact Option.some.inj hstep ▸ hset v _ hone
  | mgroup value => exact Option.some.inj hstep ▸ hset v _ hone
  | timeRange range now => exact Option.some.inj hstep ▸ hset v _ hone
  | load =>
    obtain rfl := Option.some.inj hstep
    exact ⟨oneSelection_loadMessages false hone (by simp),
      iff_of_true (showsFilters_loadMessages false) trivial⟩
  | loadMore =>
    obtain rfl := Option.some.inj hstep
    have h := loadMore_spec hone hv
    exact ⟨h.1, iff_of_true h.2 trivial⟩
  | response messages total =>
    obtain ⟨call, hcall, rfl⟩ := Option.map_eq_some_iff.mp hstep
    refine ⟨fun c hc => absurd hc (by simp [response]), ?_⟩
    rw [showsFilters_response messages total hone hcall]
    simp [Timely, hcall]
  | failure =>
    obtain ⟨call, hcall, rfl⟩ := Option.map_eq_some_iff.mp hstep
    refine ⟨fun c hc => absurd hc (by simp), ?_⟩
    simp [ShowsFilters, Timely]

end JournalLoader

/-! ### The sensor table, one step -/

namespace IoncLoader

variable {v : IoncLoader} {config : IoncConfig}

/-- After a call there is a request in flight. -/
theorem showsFilters_loadSensors : (v.loadSensors config).ShowsFilters config := by
  unfold loadSensors
  split_ifs with hbusy
  · intro hidle
    exact absurd hidle hbusy
  · intro hidle
    simp at hidle

theorem showsFilters_setFilters (filters : IoncFilters) :
    (v.setFilters config filters).ShowsFilters config := showsFilters_loadSensors

/-- While the sensors are on their way there are none. -/
def Emptied (v : IoncLoader) : Prop := ∀ request, v.loading = .sensors request → v.selection = none

theorem emptied_loadSensors (hv : v.Emptied) : (v.loadSensors config).Emptied := by
  unfold loadSensors
  split_ifs with hbusy
  · exact hv
  · intro _ _
    rfl

/-- Only the list and its keys change with the pinned sensors. -/
theorem pinnedResponse_spec (sensors : List IoncSensor) :
    (v.pinnedResponse sensors).loading = .idle ∧
      (v.pinnedResponse sensors).filters = v.filters ∧
      (v.pinnedResponse sensors).selection = v.selection := by
  refine ⟨rfl, ?_⟩
  simp only [pinnedResponse]
  induction sensors generalizing v with
  | nil => exact ⟨rfl, rfl⟩
  | cons sensor sensors ih =>
    rw [List.foldl_cons]
    by_cases hmem : sensor.id ∈ v.sensorMap
    · rw [if_pos hmem]
      exact ih
    · rw [if_neg hmem]
      exact ih

/-- What one step does. -/
theorem step_spec {w : IoncLoader} (a : IoncLoaderAction) (hempty : v.Emptied)
    (hv : v.ShowsFilters config) (hstep : v.step config a = some w) :
    w.Emptied ∧ (w.ShowsFilters config ↔ v.Timely config a) := by
  -- a handler leaves a request in flight
  have hset : ∀ (u : IoncLoader) filters, u.Emptied → (u.setFilters config filters).Emptied ∧
      ((u.setFilters config filters).ShowsFilters config ↔ True) :=
    fun u filters hu => ⟨emptied_loadSensors hu,
      iff_of_true (showsFilters_setFilters filters) trivial⟩
  cases a with
  | input text =>
    obtain rfl := Option.some.inj hstep
    exact ⟨hempty, iff_of_true hv trivial⟩
  | debounce =>
    simp only [step] at hstep
    split_ifs at hstep with htimer
    obtain rfl := Option.some.inj hstep
    exact hset { v with filterDebounce := false } _ hempty
  | inputEsc | containerEsc =>
    simp only [step] at hstep
    split_ifs at hstep with hvalue
    · obtain rfl := Option.some.inj hstep
      exact hset { v with filterInput := "" } _ hempty
    · obtain rfl := Option.some.inj hstep
      exact ⟨hempty, iff_of_true hv trivial⟩
  | typeFilter value => exact Option.some.inj hstep ▸ hset v _ hempty
  | load =>
    obtain rfl := Option.some.inj hstep
    exact ⟨emptied_loadSensors hempty, iff_of_true showsFilters_loadSensors trivial⟩
  | response sensors pinnedIds =>
    simp only [step] at hstep
    split at hstep
    · rename_i request hrequest
      obtain rfl := Option.some.inj hstep
      refine ⟨?_, ?_⟩
      · intro r hr
        simp only [response] at hr
        split_ifs at hr
      · by_cases hmissing : v.missingIds config sensors pinnedIds = []
        · simp [ShowsFilters, Timely, hrequest, response, hmissing, IoncFilters.selection]
        · simp [ShowsFilters, Timely, hrequest, response, hmissing]
    · simp at hstep
    · simp at hstep
  | failure =>
    simp only [step] at hstep
    split at hstep
    · rename_i request hrequest
      obtain rfl := Option.some.inj hstep
      have hnone := hempty request hrequest
      refine ⟨fun r hr => absurd hr (by simp), iff_of_true ?_ trivial⟩
      simp [ShowsFilters, hnone]
    · simp at hstep
    · simp at hstep
  | pinnedResponse sensors =>
    simp only [step] at hstep
    split_ifs at hstep with hpinned
    obtain rfl := Option.some.inj hstep
    obtain ⟨hidle, hfilters, hselection⟩ := pinnedResponse_spec (v := v) sensors
    refine ⟨fun r hr => absurd (hidle.symm.trans hr) (by simp), ?_⟩
    simp only [ShowsFilters, hidle, hfilters, hselection, true_implies, Timely]

end IoncLoader

/-! ### The runs -/

/-- **A list view shows the filters that are set** exactly while its responses come in time: in the
journal no response arrives after the filters of its request have changed and no request fails while
the rows are of other filters, and in the sensor table no load ends after the filters its rows are
chosen by have changed. -/
theorem showsFilters_iff {μ : Type*} (now : ℤ) (config : IoncConfig)
    {as : List (JournalLoaderAction μ)} {s : JournalLoader μ} {bs : List IoncLoaderAction}
    {t : IoncLoader} (hs : (JournalLoader.machine now).run (.new now) as = some s)
    (ht : (IoncLoader.machine config).run .new bs = some t) :
    ((JournalLoader.machine (μ := μ) now).Throughout JournalLoader.ShowsFilters as ↔
      (JournalLoader.machine (μ := μ) now).EveryStep JournalLoader.Timely as) ∧
    ((IoncLoader.machine config).Throughout (IoncLoader.ShowsFilters · config) bs ↔
      (IoncLoader.machine config).EveryStep (IoncLoader.Timely · config) bs) := by
  constructor
  · refine Machine.throughout_iff_everyStep
      (I := fun v : JournalLoader μ => v.OneSelection ∧ v.ShowsFilters) ?_ ?_ (fun _ h => h.2) ?_ hs
    · exact ⟨fun _ h => absurd h (by simp [JournalLoader.machine, JournalLoader.new]),
        fun _ r hr => absurd hr List.not_mem_nil⟩
    · intro v a w hv htimely hw
      have h := JournalLoader.step_spec a hv.1 hv.2 hw
      exact ⟨h.1, h.2.mpr htimely⟩
    · intro v a w hv htimely hw hshows
      exact htimely ((JournalLoader.step_spec a hv.1 hv.2 hw).2.mp hshows)
  · refine Machine.throughout_iff_everyStep
      (I := fun v : IoncLoader => v.Emptied ∧ v.ShowsFilters config) ?_ ?_ (fun _ h => h.2) ?_ ht
    · exact ⟨fun _ _ => rfl, fun _ x hx => absurd hx (by simp [IoncLoader.machine, IoncLoader.new])⟩
    · intro v a w hv htimely hw
      have h := IoncLoader.step_spec a hv.1 hv.2 hw
      exact ⟨h.1, h.2.mpr htimely⟩
    · intro v a w hv htimely hw hshows
      exact htimely ((IoncLoader.step_spec a hv.1 hv.2 hw).2.mp hshows)

/-- The journal: another type is chosen once the messages are there. -/
def mtypeAfter : List (JournalLoaderAction String) :=
  [.load, .response ["text"] 1, .mtype "Alarm", .response ["alarm"] 1]

/-- The sensor table: another type is chosen once the sensors are there. -/
def typeAfter : List IoncLoaderAction :=
  [.load, .response [⟨1, "DI1_S", "DI"⟩] [], .typeFilter "AI", .response [⟨2, "AI1_AS", "AI"⟩] []]

/-- Both views follow the change. -/
theorem showsFilters_iff_after :
    (JournalLoader.machine (μ := String) 0).Throughout JournalLoader.ShowsFilters mtypeAfter ∧
    (IoncLoader.machine serverFilter).Throughout (IoncLoader.ShowsFilters · serverFilter)
      typeAfter := by
  obtain ⟨hjournal, htable⟩ :=
    @showsFilters_iff String 0 serverFilter mtypeAfter _ typeAfter _ rfl rfl
  refine ⟨hjournal.mpr ?_, htable.mpr ?_⟩
  · refine (((Machine.everyStep_nil.concat rfl trivial).concat rfl ?_).concat rfl trivial).concat
      rfl ?_
    · intro call hcall
      obtain rfl := Option.some.inj hcall
      rfl
    · intro call hcall
      obtain rfl := Option.some.inj hcall
      rfl
  · refine (((Machine.everyStep_nil.concat rfl trivial).concat rfl ?_).concat rfl trivial).concat
      rfl ?_
    · intro request hrequest _
      obtain rfl := IoncLoading.sensors.inj hrequest
      rfl
    · intro request hrequest _
      obtain rfl := IoncLoading.sensors.inj hrequest
      rfl

end UnisetPanel
