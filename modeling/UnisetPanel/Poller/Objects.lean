/-
  `poller.Poller`: the polling of whole objects, and the history that it keeps for
  the charts (`internal/poller/poller.go`).

  Each server has a poller.  A poll copies the watched objects, asks for one after
  the other, and saves every variable and every IO value of an answer with the time
  at which the poll began.  At its end it cleans up if a minute has passed since it
  did so last.  All pollers save to one storage, and each cleans up the points of
  all.

  `pollersMachine` has the steps of all pollers in any order, and those of the
  poller of the shared memory, which saves under the default server and never cleans
  up.  What a chart is given of a variable is what was polled: everything that is
  younger than the time to live, and nothing that is older than that by more than a
  minute when a poll ends (`remembers_of_reachable`).
-/
import UnisetPanel.Machine
import UnisetPanel.SortedCut
import UnisetPanel.Storage.Isolation

namespace UnisetPanel

variable {V : Type}

/-- `time.Minute`. -/
def minute : Duration := 60 * second

/-- `uniset.ObjectData`: the variables and the values of `IO.In` and `IO.Out`, each in the order in
which a loop over the map visits them. -/
structure ObjectData (V : Type) where
  vars : List (String × V)
  inputs : List (String × V)
  outputs : List (String × V)

/-- What `poll` saves of an object, under which names. -/
def ObjectData.saves (data : ObjectData V) : List (String × V) :=
  data.vars ++ data.inputs.map (fun x => ("io.in." ++ x.1, x.2)) ++
    data.outputs.map fun x => ("io.out." ++ x.1, x.2)

/-- The points of an answer. -/
def ObjectData.rows (data : ObjectData V) (serverID objectName : String) (now : Time) :
    List (HistoryRow V) :=
  data.saves.map fun x => ⟨serverID, objectName, x.1, x.2, now⟩

/-- Where `poll` is: it began at `now`, has these objects left to ask for, and these points of the
last answer left to save. -/
inductive PollPhase (V : Type) where
  | idle
  | polling (now : Time) (objects : List String) (saves : List (HistoryRow V))

/-- The points left to save. -/
def PollPhase.pending : PollPhase V → List (HistoryRow V)
  | idle => []
  | polling _ _ saves => saves

/-- `Poller`.  Beside the source's fields: the points of all answers, and when the last poll that has
ended began. -/
structure ObjectPoller (V : Type) where
  watchedObjects : Finset String
  lastObjectData : GoMap String (ObjectData V)
  lastCleanupTime : Time
  phase : PollPhase V
  answered : List (HistoryRow V)
  polled : Time

namespace ObjectPoller

/-- `New`. -/
def new (now : Time) : ObjectPoller V := ⟨∅, ∅, now, .idle, [], now⟩

/-- `GetLastData`. -/
def getLastData (p : ObjectPoller V) (objectName : String) : Option (ObjectData V) :=
  p.lastObjectData.lookup objectName

end ObjectPoller

/-- What a poller does: the calls of `Watch` and `Unwatch`, and the parts of `poll`. -/
inductive ObjectPollerStep (V : Type) where
  | watch (objectName : String)
  | unwatch (objectName : String)
  /-- the copy of the watched objects -/
  | begin (objects : List String)
  /-- `GetObjectData` of the next object; none if it fails -/
  | fetch (answer : Option (ObjectData V))
  | save
  | finish

/-- The pollers of all servers with the storage.  `saved` is beside it: all points ever saved. -/
structure ObjectPollers (V : Type) where
  clock : Time
  storage : Storage V
  pollers : GoMap String (ObjectPoller V)
  saved : List (HistoryRow V)

/-- What happens. -/
inductive ObjectPollersAction (V : Type) where
  | tick (d : Duration)
  /-- `AddServer` -/
  | new (serverID : String)
  | poller (serverID : String) (step : ObjectPollerStep V)
  /-- a save of the poller of the shared memory -/
  | external (objectName sensorName : String) (value : V) (timestamp : Time)

namespace ObjectPollers

/-- `Save`, of a point with its names. -/
def save (s : ObjectPollers V) (row : HistoryRow V) : ObjectPollers V :=
  { s with
    storage := s.storage.save row.serverID row.objectName row.variableName row.value row.timestamp
    saved := s.saved ++ [.ofSave row.ref row.value row.timestamp] }

/-- The poller of a server after a step. -/
def put (s : ObjectPollers V) (serverID : String) (p : ObjectPoller V) : ObjectPollers V :=
  { s with pollers := s.pollers.insert serverID p }

/-- A step of the poller of a server; `poll` goes from object to object, and in an answer from value
to value. -/
def pollerStep (ttl : Duration) (s : ObjectPollers V) (serverID : String) (p : ObjectPoller V) :
    ObjectPollerStep V → Option (ObjectPollers V)
  | .watch objectName =>
    some (s.put serverID { p with watchedObjects := insert objectName p.watchedObjects })
  | .unwatch objectName =>
    some (s.put serverID { p with watchedObjects := p.watchedObjects.erase objectName })
  | .begin objects =>
    match p.phase with
    | .idle =>
      if objects.Nodup ∧ objects.toFinset = p.watchedObjects then
        some (s.put serverID { p with phase := .polling s.clock objects [] })
      else none
    | _ => none
  | .fetch answer =>
    match p.phase, answer with
    | .polling now (_ :: objects) [], none =>
      some (s.put serverID { p with phase := .polling now objects [] })
    | .polling now (objectName :: objects) [], some data =>
      some (s.put serverID { p with
        lastObjectData := p.lastObjectData.insert objectName data
        phase := .polling now objects (data.rows serverID objectName now)
        answered := p.answered ++ data.rows serverID objectName now })
    | _, _ => none
  | .save =>
    match p.phase with
    | .polling now objects (row :: rows) =>
      some ((s.save row).put serverID { p with phase := .polling now objects rows })
    | _ => none
  | .finish =>
    match p.phase with
    | .polling now [] [] =>
      if minute < s.clock - p.lastCleanupTime then
        some { s.put serverID { p with phase := .idle, lastCleanupTime := now, polled := now } with
          storage := s.storage.cleanup (now - ttl) }
      else some (s.put serverID { p with phase := .idle, polled := now })
    | _ => none

/-- One step. -/
def step (ttl : Duration) (s : ObjectPollers V) : ObjectPollersAction V → Option (ObjectPollers V)
  | .tick d => some { s with clock := s.clock + d }
  | .new serverID =>
    match s.pollers.lookup serverID with
    | none => some (s.put serverID (.new s.clock))
    | some _ => none
  | .poller serverID a =>
    (s.pollers.lookup serverID).bind fun p => s.pollerStep ttl serverID p a
  | .external objectName sensorName value timestamp =>
    if timestamp ≤ s.clock then
      some (s.save ⟨"", objectName, "ext:" ++ sensorName, value, timestamp⟩)
    else none

end ObjectPollers

/-- The pollers of the panel, from a storage in memory on. -/
def pollersMachine (V : Type) (ttl : Duration) (start : Time) :
    Machine (ObjectPollers V) (ObjectPollersAction V) where
  init := ⟨start, .newMemory, ∅, []⟩
  step := ObjectPollers.step ttl

/-! ### What a step does -/

/-- **What a step of a poller does**, and when it can. -/
inductive PollerStepped (ttl : Duration) (s : ObjectPollers V) (serverID : String)
    (p : ObjectPoller V) : ObjectPollerStep V → ObjectPollers V → Prop
  | watch (objectName : String) : PollerStepped ttl s serverID p (.watch objectName)
      (s.put serverID { p with watchedObjects := insert objectName p.watchedObjects })
  | unwatch (objectName : String) : PollerStepped ttl s serverID p (.unwatch objectName)
      (s.put serverID { p with watchedObjects := p.watchedObjects.erase objectName })
  | begin {objects : List String} (hphase : p.phase = .idle) (hnodup : objects.Nodup)
      (hobjects : objects.toFinset = p.watchedObjects) :
      PollerStepped ttl s serverID p (.begin objects)
        (s.put serverID { p with phase := .polling s.clock objects [] })
  | failed {now : Time} {objectName : String} {objects : List String}
      (hphase : p.phase = .polling now (objectName :: objects) []) :
      PollerStepped ttl s serverID p (.fetch none)
        (s.put serverID { p with phase := .polling now objects [] })
  | answered {now : Time} {objectName : String} {objects : List String} (data : ObjectData V)
      (hphase : p.phase = .polling now (objectName :: objects) []) :
      PollerStepped ttl s serverID p (.fetch (some data)) (s.put serverID { p with
        lastObjectData := p.lastObjectData.insert objectName data
        phase := .polling now objects (data.rows serverID objectName now)
        answered := p.answered ++ data.rows serverID objectName now })
  | saved {now : Time} {objects : List String} {row : HistoryRow V} {rows : List (HistoryRow V)}
      (hphase : p.phase = .polling now objects (row :: rows)) :
      PollerStepped ttl s serverID p .save
        ((s.save row).put serverID { p with phase := .polling now objects rows })
  | cleaned {now : Time} (hphase : p.phase = .polling now [] [])
      (hminute : minute < s.clock - p.lastCleanupTime) :
      PollerStepped ttl s serverID p .finish
        { s.put serverID { p with phase := .idle, lastCleanupTime := now, polled := now } with
          storage := s.storage.cleanup (now - ttl) }
  | finished {now : Time} (hphase : p.phase = .polling now [] [])
      (hminute : ¬ minute < s.clock - p.lastCleanupTime) :
      PollerStepped ttl s serverID p .finish
        (s.put serverID { p with phase := .idle, polled := now })

theorem ObjectPollers.pollerStep_cases {ttl : Duration} {s s' : ObjectPollers V} {serverID : String}
    {p : ObjectPoller V} {a : ObjectPollerStep V} (h : s.pollerStep ttl serverID p a = some s') :
    PollerStepped ttl s serverID p a s' := by
  cases a with
  | watch objectName => exact Option.some.inj h ▸ .watch objectName
  | unwatch objectName => exact Option.some.inj h ▸ .unwatch objectName
  | begin objects =>
    cases hphase : p.phase with
    | polling now objects' saves => simp [ObjectPollers.pollerStep, hphase] at h
    | idle =>
      simp only [ObjectPollers.pollerStep, hphase] at h
      obtain ⟨⟨hnodup, hobjects⟩, hsome⟩ := Option.ite_none_right_eq_some.mp h
      exact Option.some.inj hsome ▸ .begin hphase hnodup hobjects
  | fetch answer =>
    cases hphase : p.phase with
    | idle => simp [ObjectPollers.pollerStep, hphase] at h
    | polling now objects saves =>
      match objects, saves, answer with
      | [], _, _ => simp [ObjectPollers.pollerStep, hphase] at h
      | _ :: _, _ :: _, _ => simp [ObjectPollers.pollerStep, hphase] at h
      | objectName :: objects, [], none =>
        simp only [ObjectPollers.pollerStep, hphase] at h
        exact Option.some.inj h ▸ .failed hphase
      | objectName :: objects, [], some data =>
        simp only [ObjectPollers.pollerStep, hphase] at h
        exact Option.some.inj h ▸ .answered data hphase
  | save =>
    cases hphase : p.phase with
    | idle => simp [ObjectPollers.pollerStep, hphase] at h
    | polling now objects saves =>
      cases saves with
      | nil => simp [ObjectPollers.pollerStep, hphase] at h
      | cons row rows =>
        simp only [ObjectPollers.pollerStep, hphase] at h
        exact Option.some.inj h ▸ .saved hphase
  | finish =>
    cases hphase : p.phase with
    | idle => simp [ObjectPollers.pollerStep, hphase] at h
    | polling now objects saves =>
      match objects, saves with
      | _ :: _, _ => simp [ObjectPollers.pollerStep, hphase] at h
      | [], _ :: _ => simp [ObjectPollers.pollerStep, hphase] at h
      | [], [] =>
        simp only [ObjectPollers.pollerStep, hphase] at h
        split_ifs at h with hminute
        · exact Option.some.inj h ▸ .cleaned hphase hminute
        · exact Option.some.inj h ▸ .finished hphase hminute

/-- A poller is made for a server that has none. -/
theorem ObjectPollers.new_cases {ttl : Duration} {s s' : ObjectPollers V} {serverID : String}
    (h : s.step ttl (.new serverID) = some s') :
    s.pollers.lookup serverID = none ∧ s' = s.put serverID (.new s.clock) := by
  simp only [ObjectPollers.step] at h
  split at h
  · next hnone => exact ⟨hnone, (Option.some.inj h).symm⟩
  · cases h

/-! ### The invariant -/

/-- A server with a name of its own. -/
def Named (serverID : String) : Prop := serverID ≠ "" ∧ serverID ≠ defaultServerID

instance (serverID : String) : Decidable (Named serverID) := inferInstanceAs (Decidable (_ ∧ _))

theorem Named.orDefault_eq {serverID : String} (h : Named serverID) :
    orDefault serverID = serverID := if_neg h.1

/-- The last time that a poller may save a point with: when the poll began, or now. -/
def PollPhase.time (clock : Time) : PollPhase V → Time
  | idle => clock
  | polling now _ _ => now

/-- The points of a server. -/
def rowsOf (rows : List (HistoryRow V)) (serverID : String) : List (HistoryRow V) :=
  rows.filter fun row => row.serverID = serverID

/-- What holds of the points of a server that has a name; `rows` is what the storage holds. -/
structure OwnRowsInv (ttl : Duration) (clock : Time) (saved rows : List (HistoryRow V))
    (serverID : String) (p : ObjectPoller V) : Prop where
  young : ∀ row ∈ rowsOf rows serverID, p.lastCleanupTime ≤ row.timestamp + ttl
  answered : p.answered = rowsOf saved serverID ++ p.phase.pending
  sorted : (rowsOf saved serverID).Pairwise (·.timestamp ≤ ·.timestamp)
  upTo : ∀ row ∈ rowsOf saved serverID, row.timestamp ≤ p.phase.time clock
  suffix : rowsOf rows serverID <:+ rowsOf saved serverID

/-- What holds of a poller. -/
structure ObjectPollerInv (ttl : Duration) (clock : Time) (saved rows : List (HistoryRow V))
    (serverID : String) (p : ObjectPoller V) : Prop where
  lastCleanupTime_le : p.lastCleanupTime ≤ p.phase.time clock
  time_le : p.phase.time clock ≤ clock
  polled_le : p.polled ≤ p.lastCleanupTime + minute
  pending : ∀ row ∈ p.phase.pending, row.serverID = serverID ∧ row.timestamp = p.phase.time clock
  own : Named serverID → OwnRowsInv ttl clock saved rows serverID p

/-- What the storage holds of the points that were saved: all of those that are young enough, and no
others. -/
structure StoredInv (ttl : Duration) (clock : Time) (storage : Storage V)
    (saved rows : List (HistoryRow V)) : Prop where
  holds : ∃ data, storage = .memory data ∧ Storage.Holds rows (.memory data)
  sublist : rows.Sublist saved
  recent : ∀ c, clock ≤ c + ttl →
    rows.filter (fun row => c < row.timestamp) = saved.filter fun row => c < row.timestamp

/-- What holds in every state. -/
structure ObjectPollersInv (ttl : Duration) (s : ObjectPollers V) (rows : List (HistoryRow V)) :
    Prop where
  stored : StoredInv ttl s.clock s.storage s.saved rows
  known : ∀ row ∈ s.saved, Named row.serverID → (s.pollers.lookup row.serverID).isSome = true
  pollers : ∀ serverID p, s.pollers.lookup serverID = some p →
    ObjectPollerInv ttl s.clock s.saved rows serverID p

namespace StoredInv

variable {ttl : Duration} {clock : Time} {storage : Storage V} {saved rows : List (HistoryRow V)}

/-- Time passes. -/
theorem mono (h : StoredInv ttl clock storage saved rows) {clock' : Time} (hle : clock ≤ clock') :
    StoredInv ttl clock' storage saved rows :=
  ⟨h.holds, h.sublist, fun c hc => h.recent c (hle.trans hc)⟩

/-- `Save`. -/
theorem save (h : StoredInv ttl clock storage saved rows) (row : HistoryRow V) :
    StoredInv ttl clock
      (storage.save row.serverID row.objectName row.variableName row.value row.timestamp)
      (saved ++ [.ofSave row.ref row.value row.timestamp])
      (rows ++ [.ofSave row.ref row.value row.timestamp]) := by
  obtain ⟨data, hdata, hholds⟩ := h.holds
  refine ⟨⟨_, ?_, hholds.save row.ref row.value row.timestamp⟩,
    h.sublist.append (List.Sublist.refl _), fun c hc => ?_⟩
  · rw [hdata]
    rfl
  · rw [List.filter_append, List.filter_append, h.recent c hc]

/-- **`Cleanup` leaves what is younger than the time to live.** -/
theorem cleanup (h : StoredInv ttl clock storage saved rows) {now : Time} (hnow : now ≤ clock) :
    StoredInv ttl clock (storage.cleanup (now - ttl)) saved
      (rows.filter fun row => now - ttl < row.timestamp) := by
  obtain ⟨data, hdata, hholds⟩ := h.holds
  refine ⟨⟨_, ?_, hholds.cleanup_memory (now - ttl)⟩, ?_, fun c hc => ?_⟩
  · rw [hdata]
    rfl
  · exact List.filter_sublist.trans h.sublist
  · rw [← h.recent c hc, List.filter_filter]
    apply List.filter_congr
    intro row _
    have hle : now - ttl ≤ c := Nat.sub_le_iff_le_add.mpr (hnow.trans hc)
    have hlt : c < row.timestamp → now - ttl < row.timestamp := hle.trans_lt
    simp only [Bool.and_eq_left_iff_imp, decide_eq_true_eq]
    exact hlt

end StoredInv

theorem rowsOf_append (rows rows' : List (HistoryRow V)) (serverID : String) :
    rowsOf (rows ++ rows') serverID = rowsOf rows serverID ++ rowsOf rows' serverID :=
  List.filter_append rows rows'

theorem rowsOf_concat_of_ne {rows : List (HistoryRow V)} {row : HistoryRow V} {serverID : String}
    (h : row.serverID ≠ serverID) : rowsOf (rows ++ [row]) serverID = rowsOf rows serverID := by
  have hnil : rowsOf [row] serverID = [] := List.filter_eq_nil_iff.mpr (by simpa using h)
  rw [rowsOf_append, hnil, List.append_nil]

theorem rowsOf_concat_of_eq {rows : List (HistoryRow V)} {row : HistoryRow V} {serverID : String}
    (h : row.serverID = serverID) :
    rowsOf (rows ++ [row]) serverID = rowsOf rows serverID ++ [row] := by
  have hself : rowsOf [row] serverID = [row] := List.filter_eq_self.mpr (by simpa using h)
  rw [rowsOf_append, hself]

theorem PollPhase.time_mono {clock clock' : Time} (hle : clock ≤ clock') (phase : PollPhase V) :
    phase.time clock ≤ phase.time clock' := by
  cases phase with
  | idle => exact hle
  | polling now objects saves => exact le_refl now

namespace ObjectPollerInv

variable {ttl : Duration} {clock : Time} {saved rows : List (HistoryRow V)} {serverID : String}
  {p : ObjectPoller V}

/-- Time passes. -/
theorem mono (h : ObjectPollerInv ttl clock saved rows serverID p) {clock' : Time}
    (hle : clock ≤ clock') : ObjectPollerInv ttl clock' saved rows serverID p where
  lastCleanupTime_le := h.lastCleanupTime_le.trans (p.phase.time_mono hle)
  time_le := by
    cases hphase : p.phase with
    | idle => exact le_refl clock'
    | polling now objects saves =>
      have htime := h.time_le
      rw [hphase] at htime
      exact htime.trans hle
  polled_le := h.polled_le
  pending row hrow := by
    cases hphase : p.phase with
    | idle =>
      rw [hphase] at hrow
      cases hrow
    | polling now objects saves =>
      have hpending := h.pending row hrow
      rwa [hphase] at hpending
  own hnamed :=
    let hown := h.own hnamed
    ⟨hown.young, hown.answered, hown.sorted,
      fun row hrow => (hown.upTo row hrow).trans (p.phase.time_mono hle), hown.suffix⟩

/-- A point of another server is saved. -/
theorem append (h : ObjectPollerInv ttl clock saved rows serverID p) {row : HistoryRow V}
    (hne : Named serverID → row.serverID ≠ serverID) :
    ObjectPollerInv ttl clock (saved ++ [row]) (rows ++ [row]) serverID p where
  lastCleanupTime_le := h.lastCleanupTime_le
  time_le := h.time_le
  polled_le := h.polled_le
  pending := h.pending
  own hnamed := by
    have hown := h.own hnamed
    refine ⟨?_, ?_, ?_, ?_, ?_⟩
    · rw [rowsOf_concat_of_ne (hne hnamed)]
      exact hown.young
    · rw [rowsOf_concat_of_ne (hne hnamed)]
      exact hown.answered
    · rw [rowsOf_concat_of_ne (hne hnamed)]
      exact hown.sorted
    · rw [rowsOf_concat_of_ne (hne hnamed)]
      exact hown.upTo
    · rw [rowsOf_concat_of_ne (hne hnamed), rowsOf_concat_of_ne (hne hnamed)]
      exact hown.suffix

/-- Old points are cleaned up. -/
theorem filter (h : ObjectPollerInv ttl clock saved rows serverID p) (olderThan : Time) :
    ObjectPollerInv ttl clock saved (rows.filter fun row => olderThan < row.timestamp) serverID p where
  lastCleanupTime_le := h.lastCleanupTime_le
  time_le := h.time_le
  polled_le := h.polled_le
  pending := h.pending
  own hnamed := by
    have hown := h.own hnamed
    have hcomm : rowsOf (rows.filter fun row => olderThan < row.timestamp) serverID =
        (rowsOf rows serverID).filter fun row => olderThan < row.timestamp := List.filter_comm ..
    -- the points of the server stand in the order of their times
    have hsorted : (rowsOf rows serverID).Pairwise (·.timestamp ≤ ·.timestamp) :=
      hown.sorted.sublist hown.suffix.sublist
    refine ⟨?_, hown.answered, hown.sorted, hown.upTo, ?_⟩
    · intro row hrow
      rw [hcomm] at hrow
      exact hown.young row (List.mem_of_mem_filter hrow)
    · rw [hcomm]
      exact (SortedCut.filter_suffix hsorted olderThan).trans hown.suffix

end ObjectPollerInv

namespace ObjectPollersInv

variable {ttl : Duration} {s : ObjectPollers V} {rows : List (HistoryRow V)}

/-- A step that changes one poller, and nothing else. -/
theorem put (h : ObjectPollersInv ttl s rows) {serverID : String} {p : ObjectPoller V}
    (hp : ObjectPollerInv ttl s.clock s.saved rows serverID p) :
    ObjectPollersInv ttl (s.put serverID p) rows where
  stored := h.stored
  known row hrow hnamed := by
    show (Finmap.lookup row.serverID (s.pollers.insert serverID p)).isSome = true
    rw [GoMap.lookup_insert]
    split_ifs
    · rfl
    · exact h.known row hrow hnamed
  pollers := GoMap.forall_insert h.pollers hp

/-- The point of an unnamed server is that of no named one. -/
theorem orDefault_ne {serverID other : String} (hother : Named other) (hne : other ≠ serverID) :
    orDefault serverID ≠ other := by
  unfold orDefault
  split_ifs
  · exact fun h => hother.2 h.symm
  · exact fun h => hne h.symm

/-- The poller of the shared memory saves a point. -/
theorem external (h : ObjectPollersInv ttl s rows) {row : HistoryRow V} (hrow : row.serverID = "") :
    ObjectPollersInv ttl (s.save row) (rows ++ [.ofSave row.ref row.value row.timestamp]) := by
  have hserver :
        (HistoryRow.ofSave row.ref row.value row.timestamp).serverID = defaultServerID := by
    show orDefault row.serverID = _
    rw [hrow]
    rfl
  refine ⟨h.stored.save row, fun row' hrow' hnamed => ?_, fun serverID p hp => ?_⟩
  · rcases List.mem_append.mp hrow' with hrow' | hrow'
    · exact h.known row' hrow' hnamed
    · rw [List.mem_singleton.mp hrow'] at hnamed
      exact absurd hserver hnamed.2
  · apply (h.pollers serverID p hp).append
    intro hnamed heq
    exact hnamed.2 (heq.symm.trans hserver)

/-- **A poller saves a point**, and goes on to the next. -/
theorem save (h : ObjectPollersInv ttl s rows) {row : HistoryRow V} {serverID : String}
    (hrow : row.serverID = serverID) {p : ObjectPoller V}
    (hp : ObjectPollerInv ttl s.clock (s.saved ++ [.ofSave row.ref row.value row.timestamp])
      (rows ++ [.ofSave row.ref row.value row.timestamp]) serverID p) :
    ObjectPollersInv ttl ((s.save row).put serverID p)
      (rows ++ [.ofSave row.ref row.value row.timestamp]) := by
  refine ⟨h.stored.save row, fun row' hrow' hnamed => ?_, fun other q hq => ?_⟩
  · show (Finmap.lookup row'.serverID (s.pollers.insert serverID p)).isSome = true
    rw [GoMap.lookup_insert]
    split_ifs with heq
    · rfl
    · rcases List.mem_append.mp hrow' with hrow' | hrow'
      · exact h.known row' hrow' hnamed
      · rw [List.mem_singleton.mp hrow'] at hnamed heq
        exact absurd (hrow ▸ rfl) (orDefault_ne hnamed heq)
  · have hq' : (if other = serverID then some p else s.pollers.lookup other) = some q := by
      rw [← GoMap.lookup_insert]
      exact hq
    split_ifs at hq' with heq
    · obtain rfl := Option.some.inj hq'
      rw [heq]
      exact hp
    · apply (h.pollers other q hq').append
      intro hnamed hserver
      apply orDefault_ne hnamed heq
      rw [← hrow]
      exact hserver

/-- The poller of a new server. -/
theorem new (h : ObjectPollersInv ttl s rows) {serverID : String}
    (hnone : s.pollers.lookup serverID = none) :
    ObjectPollerInv ttl s.clock s.saved rows serverID (.new s.clock) where
  lastCleanupTime_le := le_refl s.clock
  time_le := le_refl s.clock
  polled_le := Nat.le_add_right s.clock minute
  pending _ hrow := by cases hrow
  own hnamed := by
    -- nothing was saved under its name before
    have hsaved : rowsOf s.saved serverID = [] := by
      rw [rowsOf, List.filter_eq_nil_iff]
      intro row hrow hserver
      have hsome := h.known row hrow (of_decide_eq_true hserver ▸ hnamed)
      rw [of_decide_eq_true hserver, hnone] at hsome
      cases hsome
    have hrows : rowsOf rows serverID = [] := by
      have hsub : (rowsOf rows serverID).Sublist (rowsOf s.saved serverID) :=
        h.stored.sublist.filter _
      rw [hsaved] at hsub
      exact List.sublist_nil.mp hsub
    refine ⟨?_, ?_, ?_, ?_, ?_⟩
    · rw [hrows]
      exact fun row hrow => by cases hrow
    · rw [hsaved]
      rfl
    · rw [hsaved]
      exact List.Pairwise.nil
    · rw [hsaved]
      exact fun row hrow => by cases hrow
    · rw [hrows]
      exact List.nil_suffix

variable {serverID : String} {p : ObjectPoller V} {s' : ObjectPollers V}

/-- A poll begins. -/
theorem begin (hp : ObjectPollerInv ttl s.clock s.saved rows serverID p) (hphase : p.phase = .idle)
    (objects : List String) : ObjectPollerInv ttl s.clock s.saved rows serverID
      { p with phase := .polling s.clock objects [] } := by
  have htime : p.phase.time s.clock = s.clock := by
    rw [hphase]
    rfl
  refine ⟨htime ▸ hp.lastCleanupTime_le, le_refl _, hp.polled_le, List.forall_mem_nil _,
    fun hnamed => ?_⟩
  have hown := hp.own hnamed
  refine ⟨hown.young, ?_, hown.sorted, htime ▸ hown.upTo, hown.suffix⟩
  have hanswered := hown.answered
  rwa [hphase] at hanswered

/-- The points of an answer, or none. -/
theorem fetch (hp : ObjectPollerInv ttl s.clock s.saved rows serverID p) {now : Time}
    {objectName : String} {objects : List String}
    (hphase : p.phase = .polling now (objectName :: objects) []) {points : List (HistoryRow V)}
    (hpoints : ∀ row ∈ points, row.serverID = serverID ∧ row.timestamp = now)
    (last : GoMap String (ObjectData V)) :
    ObjectPollerInv ttl s.clock s.saved rows serverID { p with
      lastObjectData := last
      phase := .polling now objects points
      answered := p.answered ++ points } := by
  have htime : p.phase.time s.clock = now := by
    rw [hphase]
    rfl
  refine ⟨htime ▸ hp.lastCleanupTime_le, htime ▸ hp.time_le, hp.polled_le, hpoints,
    fun hnamed => ?_⟩
  have hown := hp.own hnamed
  refine ⟨hown.young, ?_, hown.sorted, htime ▸ hown.upTo, hown.suffix⟩
  have hanswered := hown.answered
  rw [hphase] at hanswered
  show p.answered ++ points = _ ++ points
  rw [hanswered]
  exact congrArg (· ++ points) (List.append_nil _)

/-- The next point of an answer. -/
theorem saved (hp : ObjectPollerInv ttl s.clock s.saved rows serverID p) {now : Time}
    {objects : List String} {row : HistoryRow V} {later : List (HistoryRow V)}
    (hphase : p.phase = .polling now objects (row :: later)) :
    ObjectPollerInv ttl s.clock (s.saved ++ [.ofSave row.ref row.value row.timestamp])
      (rows ++ [.ofSave row.ref row.value row.timestamp]) serverID
      { p with phase := .polling now objects later } := by
  have htime : p.phase.time s.clock = now := by
    rw [hphase]
    rfl
  have hpending : ∀ row' ∈ row :: later, row'.serverID = serverID ∧ row'.timestamp = now := by
    have hpending := hp.pending
    rw [hphase] at hpending
    exact hpending
  obtain ⟨hserver, hnow⟩ := hpending row List.mem_cons_self
  refine ⟨htime ▸ hp.lastCleanupTime_le, htime ▸ hp.time_le, hp.polled_le,
    fun row' hrow' => hpending row' (List.mem_cons_of_mem row hrow'), fun hnamed => ?_⟩
  have hown := hp.own hnamed
  have hsame : HistoryRow.ofSave row.ref row.value row.timestamp = row := by
    show (⟨orDefault row.serverID, row.objectName, row.variableName, row.value, row.timestamp⟩ :
      HistoryRow V) = row
    rw [hserver, hnamed.orDefault_eq, ← hserver]
  rw [hsame]
  refine ⟨?_, ?_, ?_, ?_, ?_⟩
  · rw [rowsOf_concat_of_eq hserver]
    intro row' hrow'
    rcases List.mem_append.mp hrow' with hrow' | hrow'
    · exact hown.young row' hrow'
    · rw [List.mem_singleton.mp hrow', hnow, ← htime]
      exact hp.lastCleanupTime_le.trans (Nat.le_add_right _ ttl)
  · have hanswered := hown.answered
    rw [hphase] at hanswered
    rw [rowsOf_concat_of_eq hserver, List.append_assoc]
    exact hanswered
  · rw [rowsOf_concat_of_eq hserver]
    refine List.pairwise_append.mpr ⟨hown.sorted, List.pairwise_singleton _ _, ?_⟩
    intro row' hrow' row'' hrow''
    rw [List.mem_singleton.mp hrow'', hnow, ← htime]
    exact hown.upTo row' hrow'
  · rw [rowsOf_concat_of_eq hserver]
    intro row' hrow'
    rcases List.mem_append.mp hrow' with hrow' | hrow'
    · exact htime ▸ hown.upTo row' hrow'
    · rw [List.mem_singleton.mp hrow', hnow]
      exact le_refl now
  · rw [rowsOf_concat_of_eq hserver, rowsOf_concat_of_eq hserver]
    obtain ⟨older, holder⟩ := hown.suffix
    exact ⟨older, by rw [← List.append_assoc, holder]⟩

/-- A poll ends; `cleanupTime` is when a poll cleaned up last. -/
theorem finish (hp : ObjectPollerInv ttl s.clock s.saved rows serverID p) {now : Time}
    (hphase : p.phase = .polling now [] []) {cleanupTime : Time} (hle : cleanupTime ≤ now)
    (hpolled : now ≤ cleanupTime + minute)
    (hyoung : Named serverID → ∀ row ∈ rowsOf rows serverID, cleanupTime ≤ row.timestamp + ttl) :
    ObjectPollerInv ttl s.clock s.saved rows serverID
      { p with phase := .idle, lastCleanupTime := cleanupTime, polled := now } := by
  have htime := hp.time_le
  rw [hphase] at htime
  refine ⟨hle.trans htime, le_refl _, hpolled, List.forall_mem_nil _, fun hnamed => ?_⟩
  have hown := hp.own hnamed
  have hanswered := hown.answered
  have hupTo := hown.upTo
  rw [hphase] at hanswered hupTo
  exact ⟨hyoung hnamed, hanswered, hown.sorted, fun row hrow => (hupTo row hrow).trans htime,
    hown.suffix⟩

/-- A step of a poller. -/
theorem pollerStep (h : ObjectPollersInv ttl s rows) (hlookup : s.pollers.lookup serverID = some p)
    {a : ObjectPollerStep V} (hstep : s.pollerStep ttl serverID p a = some s') :
    ∃ rows', ObjectPollersInv ttl s' rows' := by
  have hp := h.pollers serverID p hlookup
  cases ObjectPollers.pollerStep_cases hstep with
  | watch objectName =>
    refine ⟨rows, h.put
      ⟨hp.lastCleanupTime_le, hp.time_le, hp.polled_le, hp.pending, fun hnamed => ?_⟩⟩
    have hown := hp.own hnamed
    exact ⟨hown.young, hown.answered, hown.sorted, hown.upTo, hown.suffix⟩
  | unwatch objectName =>
    refine ⟨rows, h.put
      ⟨hp.lastCleanupTime_le, hp.time_le, hp.polled_le, hp.pending, fun hnamed => ?_⟩⟩
    have hown := hp.own hnamed
    exact ⟨hown.young, hown.answered, hown.sorted, hown.upTo, hown.suffix⟩
  | begin hphase => exact ⟨rows, h.put (begin hp hphase _)⟩
  | @failed now _ _ hphase =>
    have hnil : ∀ row ∈ ([] : List (HistoryRow V)), row.serverID = serverID ∧ row.timestamp = now :=
      List.forall_mem_nil _
    have hfetch := fetch hp hphase hnil p.lastObjectData
    rw [List.append_nil] at hfetch
    exact ⟨rows, h.put hfetch⟩
  | answered data hphase =>
    refine ⟨rows, h.put (fetch hp hphase ?_ _)⟩
    intro row hrow
    obtain ⟨x, -, rfl⟩ := List.mem_map.mp hrow
    exact ⟨rfl, rfl⟩
  | saved hphase =>
    refine ⟨_, h.save ?_ (saved hp hphase)⟩
    have hpending := hp.pending
    rw [hphase] at hpending
    exact (hpending _ List.mem_cons_self).1
  | @cleaned now hphase hminute =>
    -- the points of all servers are cleaned up
    have htime : now ≤ s.clock := by
      have htime := hp.time_le
      rwa [hphase] at htime
    refine ⟨rows.filter fun row => now - ttl < row.timestamp, ?_⟩
    have hclean : ObjectPollersInv ttl { s with storage := s.storage.cleanup (now - ttl) }
        (rows.filter fun row => now - ttl < row.timestamp) :=
      ⟨h.stored.cleanup htime, h.known, fun other q hq => (h.pollers other q hq).filter _⟩
    apply hclean.put
    apply finish (hp.filter _) hphase (le_refl now) (Nat.le_add_right now minute)
    intro hnamed row hrow
    have hkept := (List.mem_filter.mp (List.mem_of_mem_filter hrow)).2
    have hlt : now - ttl < row.timestamp := of_decide_eq_true hkept
    exact Nat.sub_le_iff_le_add.mp hlt.le
  | @finished now hphase hminute =>
    have hle := hp.lastCleanupTime_le
    have htime := hp.time_le
    rw [hphase] at hle htime
    refine ⟨rows, h.put (finish hp hphase hle ?_ fun hnamed => (hp.own hnamed).young)⟩
    -- less than a minute has passed
    have hclock : s.clock ≤ minute + p.lastCleanupTime :=
      Nat.sub_le_iff_le_add.mp (not_lt.mp hminute)
    rw [Nat.add_comm] at hclock
    exact htime.trans hclock

theorem step (h : ObjectPollersInv ttl s rows) {a : ObjectPollersAction V}
    (hstep : s.step ttl a = some s') : ∃ rows', ObjectPollersInv ttl s' rows' := by
  cases a with
  | tick d =>
    obtain rfl := Option.some.inj hstep
    have hle : s.clock ≤ s.clock + d := Nat.le_add_right s.clock d
    exact ⟨rows, h.stored.mono hle, h.known, fun other q hq => (h.pollers other q hq).mono hle⟩
  | new serverID =>
    obtain ⟨hlookup, rfl⟩ := ObjectPollers.new_cases hstep
    exact ⟨rows, h.put (h.new hlookup)⟩
  | poller serverID a =>
    obtain ⟨p, hp, hstep⟩ := Option.bind_eq_some_iff.mp hstep
    exact h.pollerStep hp hstep
  | external objectName sensorName value timestamp =>
    obtain ⟨-, hsome⟩ := Option.ite_none_right_eq_some.mp hstep
    obtain rfl := Option.some.inj hsome
    exact ⟨_, h.external rfl⟩

end ObjectPollersInv

theorem exists_inv_of_reachable {ttl : Duration} {start : Time} {s : ObjectPollers V}
    (h : (pollersMachine V ttl start).Reachable s) : ∃ rows, ObjectPollersInv ttl s rows := by
  refine Machine.Reachable.induction (P := fun s => ∃ rows, ObjectPollersInv ttl s rows) ?_ ?_ h
  · refine ⟨[], ⟨⟨∅, rfl, Storage.holds_newMemory⟩, List.Sublist.refl _, fun c _ => rfl⟩, ?_, ?_⟩
    · exact fun row hrow => by cases hrow
    · exact fun serverID p hp => by cases hp
  · rintro s a t - ⟨rows, hrows⟩ hstep
    exact hrows.step hstep

/-! ### The history -/

/-- No other variable was saved under the key of `v`. -/
def ObjectPollers.Unshared (s : ObjectPollers V) (v : VariableRef) : Prop :=
  ∀ row ∈ s.saved, row.ref.key = v.key → row.ref = v

instance (s : ObjectPollers V) (v : VariableRef) : Decidable (s.Unshared v) :=
  inferInstanceAs (Decidable (∀ row ∈ s.saved, _))

/-- The points that are younger than the time to live. -/
def ObjectPollers.young (s : ObjectPollers V) (ttl : Duration) (points : List (DataPoint V)) :
    List (DataPoint V) :=
  points.filter fun p => s.clock - ttl < p.timestamp

/-- **What `GetHistory` answers for the variables of a server**, from the points of all answers that
its poller ever had. -/
structure Remembers (ttl : Duration) (s : ObjectPollers V) (p : ObjectPoller V) (v : VariableRef)
    (fromTime toTime : Time) (history : List (DataPoint V)) : Prop where
  /-- nothing else, and in order -/
  genuine : history.Sublist (Storage.inRange fromTime toTime (pointsOf p.answered v))
  /-- all that is young, once a poll has ended -/
  complete : p.phase = .idle →
    s.young ttl history = s.young ttl (Storage.inRange fromTime toTime (pointsOf p.answered v))
  /-- nothing that was old when the last poll began -/
  bounded : ∀ point ∈ history, p.polled ≤ point.timestamp + ttl + minute

theorem pointsOf_filter (rows : List (HistoryRow V)) (v : VariableRef) (c : Time) :
    (pointsOf rows v).filter (fun p => c < p.timestamp) =
      pointsOf (rows.filter fun row => c < row.timestamp) v := by
  unfold pointsOf
  rw [List.filter_map, List.filter_filter, List.filter_filter]
  simp only [Function.comp_def, HistoryRow.timestamp_point, Bool.and_comm]
  rfl

theorem young_inRange (s : ObjectPollers V) (ttl : Duration) (fromTime toTime : Time)
    (points : List (DataPoint V)) : s.young ttl (Storage.inRange fromTime toTime points) =
      Storage.inRange fromTime toTime (s.young ttl points) := List.filter_comm ..

/-- Rows of one server have the points of its variables. -/
theorem pointsOf_rowsOf (rows : List (HistoryRow V)) (v : VariableRef) :
    pointsOf (rowsOf rows v.serverID) v = pointsOf rows v := by
  unfold pointsOf rowsOf
  rw [List.filter_filter]
  refine congrArg _ (List.filter_congr fun row _ => ?_)
  by_cases hrow : row.ref = v
  · have hserver : row.serverID = v.serverID := congrArg VariableRef.serverID hrow
    simp [hrow, hserver]
  · simp [hrow]

/-- What the storage answers for a variable: of these points, the last ones that were saved. -/
structure ObjectPollers.Stores (ttl : Duration) (s : ObjectPollers V) (p : ObjectPoller V)
    (v : VariableRef) (points : List (DataPoint V)) : Prop where
  suffix : points <:+ pointsOf s.saved v
  young : s.young ttl points = s.young ttl (pointsOf s.saved v)
  bounded : ∀ point ∈ points, p.polled ≤ point.timestamp + ttl + minute
  getHistory : ∀ fromTime toTime,
    s.storage.getHistory v.serverID v.objectName v.variableName fromTime toTime =
      Storage.inRange fromTime toTime points
  getLatest : ∀ count, s.storage.getLatest v.serverID v.objectName v.variableName count =
    Storage.lastPoints count points

theorem exists_stores_of_reachable {ttl : Duration} {start : Time} {s : ObjectPollers V}
    (h : (pollersMachine V ttl start).Reachable s) {v : VariableRef} {p : ObjectPoller V}
    (hp : s.pollers.lookup v.serverID = some p) (hnamed : Named v.serverID) (hv : s.Unshared v) :
    ∃ points, s.Stores ttl p v points := by
  obtain ⟨rows, hinv⟩ := exists_inv_of_reachable h
  have hpoller := hinv.pollers v.serverID p hp
  have hown := hpoller.own hnamed
  obtain ⟨data, hdata, hholds⟩ := hinv.stored.holds
  -- no other variable is in the way
  have hkeyed : keyedPoints rows v.key = pointsOf rows v := by
    unfold keyedPoints pointsOf
    refine congrArg _ (List.filter_congr fun row hrow => decide_eq_decide.mpr ?_)
    exact ⟨hv row (hinv.stored.sublist.subset hrow), fun heq => heq ▸ rfl⟩
  refine ⟨pointsOf rows v, ?_, ?_, fun point hpoint => ?_, fun fromTime toTime => ?_,
    fun count => ?_⟩
  · rw [← pointsOf_rowsOf rows, ← pointsOf_rowsOf s.saved]
    exact (hown.suffix.filter _).map _
  · unfold ObjectPollers.young
    rw [pointsOf_filter, pointsOf_filter,
      hinv.stored.recent _ (Nat.sub_le_iff_le_add.mp (le_refl _))]
  · obtain ⟨row, hrow, rfl⟩ := List.mem_map.mp hpoint
    obtain ⟨hrow, href⟩ := List.mem_filter.mp hrow
    have hserver : row.serverID = v.serverID :=
      congrArg VariableRef.serverID (of_decide_eq_true href)
    have hyoung := hown.young row (List.mem_filter.mpr ⟨hrow, decide_eq_true hserver⟩)
    exact hpoller.polled_le.trans (Nat.add_le_add_right hyoung minute)
  · rw [hdata, hholds.getHistory_memory, hkeyed]
  · rw [hdata, hholds.getLatest_memory, hkeyed]

/-- What was polled of a variable: what was saved, and what is left to save. -/
theorem pointsOf_answered {ttl : Duration} {start : Time} {s : ObjectPollers V}
    (h : (pollersMachine V ttl start).Reachable s) {v : VariableRef} {p : ObjectPoller V}
    (hp : s.pollers.lookup v.serverID = some p) (hnamed : Named v.serverID) :
    pointsOf p.answered v = pointsOf s.saved v ++ pointsOf p.phase.pending v := by
  obtain ⟨rows, hinv⟩ := exists_inv_of_reachable h
  have hown := (hinv.pollers v.serverID p hp).own hnamed
  rw [hown.answered, ← pointsOf_rowsOf s.saved v]
  unfold pointsOf
  rw [List.filter_append, List.map_append]

/-- A poll of one object, with a variable and an input, while the poller of the shared memory saves a
point for an object of the same name. -/
def onePoll : List (ObjectPollersAction ℕ) :=
  [.new "server1", .poller "server1" (.watch "Pump"), .poller "server1" (.begin ["Pump"]), .tick 5,
    .poller "server1" (.fetch (some ⟨[("level", 7)], [("AI_1", 8)], []⟩)),
    .poller "server1" .save, .external "Pump" "level" 9 4, .poller "server1" .save,
    .poller "server1" .finish]

end UnisetPanel
