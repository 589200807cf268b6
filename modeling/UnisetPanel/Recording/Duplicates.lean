/-
  How often an emitted value is recorded.

  A batch goes to the callback of `main`, which saves every update, and then to
  `saveToRecording`, which saves every update again: two records for each
  (`SensorPoller.Wired.saved_emit`).  For OPCUA the two differ in their names,
  of which only the one of the poller has the documented prefix.  So no batch is
  recorded as documented (`not_recordedOnce`), unless it is empty.
-/
import UnisetPanel.Recording.Panel

namespace UnisetPanel

variable {R : Type} [Float64 R] {servers : Finset String}

/-- The prefixes listed in `docs/recording.md`. -/
def documentedPrefix : Kind → String
  | .ionc => "ionc:"
  | .modbus => "mb:"
  | .opcua => "ext:"

/-- **Recorded exactly once**: one record for each update of the batch, under the documented
name. -/
def RecordedOnce (k : Kind) (serverID : String) (batch : List (Update (Item R k)))
    (records : List (DataRecord R)) : Prop :=
  (records.map fun d => (d.serverID, d.objectName, d.variableName, d.value)).Perm
    (batch.map fun u =>
      (serverID, u.objectName, documentedPrefix k ++ itemName k u.item, itemValue k u.item))

instance [DecidableEq R] (k : Kind) (serverID : String) (batch : List (Update (Item R k)))
    (records : List (DataRecord R)) : Decidable (RecordedOnce k serverID batch records) :=
  inferInstanceAs (Decidable (List.Perm _ _))

/-- While recording is on, every emitted batch is recorded exactly once. -/
def EachRecordedOnce (M : Machine (Panel R servers) (PanelAction R servers)) : Prop :=
  ∀ s, M.Reachable s → s.recordingMgr.enabled = true → ∀ kind id k e t out,
    s.exec (.emit kind id k e) = some (t, out) →
    RecordedOnce k id ((s.poller id k).batch kind e) (out.saved.map Saved.record)

/-! ### A poll of one sensor -/

/-- The poll of a subscribed IONC sensor. -/
def pollOnce : Emission ℤ .ionc := ⟨zeroFetch .ionc, [("o", [1])], 1, 1⟩

/-- **One update, two records.** -/
theorem not_eachRecordedOnce : ¬ EachRecordedOnce (panelMachine ℤ {"s"} 0 true) := by
  intro h
  have hreach : (panelMachine ℤ {"s"} 0 true).Reachable _ :=
    ⟨[.subscribe serverS .ionc "o" [1]], rfl⟩
  have honce := h _ hreach rfl .poll serverS .ionc pollOnce _ _ rfl
  exact absurd (List.Perm.length_eq honce) (by decide)

/-! ### Every batch -/

theorem wired_of_panel_reachable {batchSize : ℤ} {recordingEnabled : Bool} {s : Panel R servers}
    (h : (panelMachine R servers batchSize recordingEnabled).Reachable s) : s.Wired := by
  refine Machine.Reachable.induction (P := Panel.Wired)
    (Panel.wired_newPanel batchSize recordingEnabled) ?_ h
  intro s a t _ ih hstep
  obtain ⟨⟨t', out⟩, hexec, rfl⟩ := Option.map_eq_some_iff.mp hstep
  exact ih.exec hexec

/-- **Every emitted value is recorded twice**, by the callback and by the poller; so no batch is
ever recorded exactly once. -/
theorem not_recordedOnce (batchSize : ℤ) (recordingEnabled : Bool) (s t : Panel R servers)
    (kind : EmitKind) (id : servers) (k : Kind) (e : Emission R k) (out : Output R)
    (hreach : (panelMachine R servers batchSize recordingEnabled).Reachable s)
    (hon : s.recordingMgr.enabled = true) (hs : s.exec (.emit kind id k e) = some (t, out))
    (hne : (s.poller id k).batch kind e ≠ []) :
    out.saved.map Saved.record =
        (((s.poller id k).batch kind e).map fun u =>
          dataRecord (callbackPrefix k) (itemName k) (itemValue k) id u e.callbackNow) ++
        ((s.poller id k).batch kind e).map (fun u =>
          dataRecord (converterPrefix k) (itemName k) (itemValue k) id u u.timestamp) ∧
      ¬ RecordedOnce k id ((s.poller id k).batch kind e) (out.saved.map Saved.record) := by
  obtain ⟨-, hs⟩ := Option.ite_none_right_eq_some.mp hs
  obtain ⟨-, rfl⟩ := Prod.ext_iff.mp (Option.some.inj hs)
  have hsaved := ((wired_of_panel_reachable hreach).poller id k).saved_emit hon kind e
  have hrecords : (s.emitAt kind id k e).2.saved.map Saved.record = _ :=
    congrArg (List.map Saved.record) hsaved
  rw [List.map_append, List.map_map, List.map_map] at hrecords
  refine ⟨hrecords, fun honce => hne ?_⟩
  -- twice as many records as updates
  have hlength := honce.length_eq
  rw [hrecords] at hlength
  simp only [List.length_map, List.length_append] at hlength
  exact List.length_eq_zero_iff.mp (by omega)

/-- The poll of the counterexample. -/
theorem not_recordedOnce_pollOnce :
    ¬ RecordedOnce .ionc "s" [⟨"o", zeroItem .ionc 1, 1⟩]
      [(⟨"s", "o", "ionc:x", .int64 0, 1⟩ : DataRecord ℤ), ⟨"s", "o", "ionc:x", .int64 0, 1⟩] :=
  (not_recordedOnce 0 true _ _ .poll serverS .ionc pollOnce _
    ⟨[.subscribe serverS .ionc "o" [1]], rfl⟩ rfl rfl (by decide)).2

end UnisetPanel
