/-
  The levels of a log viewer (`setupLevelDropdown`, `applyLevelSelection` and
  `loadSavedLevels` of `30-log-viewer.js`).

  A viewer keeps a set of levels that its pills and presets change, and sends the
  mask of the set when it is applied and when the stream is connected.  The set that
  was applied last is kept in `localStorage` for the object, where the viewers of
  other pages find it.

  The mask has the bits of the levels that were chosen (`hasBit_levelMask`).  The
  table `LOG_LEVELS` of the page has a level `DEBUG` between `INFO` and `LEVEL1`, the
  constants of `logserver.LogLevel` have none: by these the mask has `LevelLevel1`
  where `DEBUG` is chosen, and each further level where the one below it is
  (`value_sameValue`).
-/
import UnisetPanel.LogServer.Commands

namespace UnisetPanel

/-! ### The two tables -/

/-- The levels that have a pill, keys of `LOG_LEVELS`; `level k` is `LEVEL1` for `k = 0`. -/
inductive PillLevel where
  | crit
  | warn
  | info
  | debug
  | level (k : Fin 9)
  | any
  deriving DecidableEq

/-- `LOG_LEVELS`. -/
def PillLevel.value : PillLevel → UInt32
  | crit => 1
  | warn => 2
  | info => 4
  | debug => 8
  | level k => 16 <<< k.val.toUInt32
  | any => 0xFFFFFFFF

/-- The levels of `logserver.LogLevel`; `level k` is `LevelLevel1` for `k = 0`. -/
inductive LogLevel where
  | crit
  | warn
  | info
  | level (k : Fin 9)
  deriving DecidableEq

/-- `LevelCrit` to `LevelLevel9`. -/
def LogLevel.value : LogLevel → UInt32
  | crit => (1 : UInt32) <<< 0
  | warn => (1 : UInt32) <<< 1
  | info => (1 : UInt32) <<< 2
  | level k => (1 : UInt32) <<< (3 + k.val).toUInt32

/-- The pill with the same value. -/
def LogLevel.sameValue : LogLevel → PillLevel
  | crit => .crit
  | warn => .warn
  | info => .info
  | level ⟨0, _⟩ => .debug
  | level ⟨k + 1, h⟩ => .level ⟨k, by omega⟩

theorem value_sameValue (l : LogLevel) : l.sameValue.value = l.value := by
  cases l with
  | level k => revert k; decide
  | _ => rfl

/-- The mask has a bit of the value. -/
def HasBit (mask value : UInt32) : Prop := mask &&& value ≠ 0

instance (mask value : UInt32) : Decidable (HasBit mask value) :=
  inferInstanceAs (Decidable (_ ≠ _))

/-! ### Masks -/

/-- The mask of a selection; `forEach` visits the set in the order of the list. -/
def levelMask (selectedLevels : List PillLevel) : UInt32 :=
  if .any ∈ selectedLevels then PillLevel.any.value
  else selectedLevels.foldl (fun mask level =>
    if level.value ≠ 0 then mask ||| level.value else mask) 0

/-- A mask has the bits of both masks it is made of. -/
theorem hasBit_or (m n value : UInt32) :
    HasBit (m ||| n) value ↔ HasBit m value ∨ HasBit n value := by
  have hdist : (m ||| n) &&& value = (m &&& value) ||| (n &&& value) := by
    apply UInt32.toBitVec_inj.mp
    rw [UInt32.toBitVec_and, UInt32.toBitVec_or, UInt32.toBitVec_or, UInt32.toBitVec_and,
      UInt32.toBitVec_and]
    ext i
    simp only [BitVec.getElem_and, BitVec.getElem_or, Bool.and_or_distrib_right]
  unfold HasBit
  rw [hdist, ne_eq, UInt32.or_eq_zero_iff, not_and_or]

theorem value_ne_zero (p : PillLevel) : p.value ≠ 0 := by
  cases p with
  | level k => revert k; decide
  | _ => decide

/-- **The levels have bits of their own.** -/
theorem hasBit_value {p q : PillLevel} (hp : p ≠ .any) (hq : q ≠ .any) :
    HasBit p.value q.value ↔ q = p := by
  cases p with
  | any => exact absurd rfl hp
  | level k =>
    cases q with
    | any => exact absurd rfl hq
    | level j => revert k j; decide
    | _ => revert k; decide
  | _ =>
    cases q with
    | any => exact absurd rfl hq
    | level j => revert j; decide
    | _ => decide

theorem hasBit_any (q : PillLevel) : HasBit PillLevel.any.value q.value := by
  cases q with
  | level k => revert k; decide
  | _ => decide

/-- **The bits of a mask** are those of the levels that are chosen, all of them with `ANY`. -/
theorem hasBit_levelMask (selectedLevels : List PillLevel) {q : PillLevel} (hq : q ≠ .any) :
    HasBit (levelMask selectedLevels) q.value ↔ .any ∈ selectedLevels ∨ q ∈ selectedLevels := by
  unfold levelMask
  split_ifs with hany
  · exact iff_of_true (hasBit_any q) (.inl hany)
  · -- the loop, from any mask
    have key : ∀ (ps : List PillLevel) (m : UInt32), .any ∉ ps →
        (HasBit (ps.foldl (fun mask level =>
          if level.value ≠ 0 then mask ||| level.value else mask) m) q.value ↔
          HasBit m q.value ∨ q ∈ ps) := by
      intro ps
      induction ps with
      | nil => simp
      | cons p ps ih =>
        intro m hps
        rw [List.mem_cons, not_or] at hps
        rw [List.foldl_cons, if_pos (value_ne_zero p), ih _ hps.2, hasBit_or,
          hasBit_value (Ne.symm hps.1) hq, List.mem_cons, or_assoc]
    have hzero : ¬ HasBit 0 q.value := fun h => h UInt32.zero_and
    rw [key selectedLevels 0 hany]
    simp only [hzero, hany, false_or]

/-- Only the empty selection has no mask. -/
theorem levelMask_eq_zero {selectedLevels : List PillLevel} :
    levelMask selectedLevels = 0 ↔ selectedLevels = [] := by
  unfold levelMask
  split_ifs with hany
  · exact iff_of_false (value_ne_zero .any) (List.ne_nil_of_mem hany)
  · have key : ∀ (ps : List PillLevel) (m : UInt32),
        ps.foldl (fun mask level => if level.value ≠ 0 then mask ||| level.value else mask) m = 0 ↔
          m = 0 ∧ ps = [] := by
      intro ps
      induction ps with
      | nil => simp
      | cons p ps ih =>
        intro m
        rw [List.foldl_cons, if_pos (value_ne_zero p), ih, UInt32.or_eq_zero_iff]
        simp [value_ne_zero p]
    rw [key]
    simp

/-! ### The viewers -/

/-- The buttons with presets. -/
inductive LevelPreset where
  | errors
  | info
  | all
  | reset

/-- What a preset chooses. -/
def LevelPreset.levels : LevelPreset → List PillLevel
  | errors => [.crit, .warn]
  | info => [.crit, .warn, .info]
  | all => [.any]
  | reset => []

/-- The levels of a `LogViewer`. -/
structure LevelViewer where
  objectName : String
  selectedLevels : List PillLevel
  currentLevel : UInt32
  connected : Bool

/-- A viewer, and the selection that was applied with its button last or else loaded. -/
structure OpenViewer where
  viewer : LevelViewer
  applied : List PillLevel

/-- The viewers that were opened, on all pages of a browser, and what `localStorage` has under
`uniset-panel-loglevels`. -/
structure LevelViewers where
  viewers : List OpenViewer
  saved : GoMap String (List PillLevel)

namespace LevelViewer

/-- `loadSavedLevels`, in the constructor; `none` if the reading fails or there is nothing. -/
def new (objectName : String) (saved : Option (List PillLevel)) : LevelViewer where
  objectName := objectName
  selectedLevels := saved.getD []
  currentLevel := levelMask (saved.getD [])
  connected := false

/-- What a click on a pill makes of the selection. -/
def toggle (selectedLevels : List PillLevel) (level : PillLevel) : List PillLevel :=
  if level = .any then if .any ∈ selectedLevels then [] else [.any]
  else
    let rest := selectedLevels.erase .any
    if level ∈ rest then rest.erase level else rest ++ [level]

/-- A click on a pill. -/
def click (v : LevelViewer) (level : PillLevel) : LevelViewer :=
  { v with selectedLevels := toggle v.selectedLevels level }

/-- A click on a preset. -/
def choose (v : LevelViewer) (preset : LevelPreset) : LevelViewer :=
  { v with selectedLevels := preset.levels }

/-- `applyLevelSelection`, without the saving and the sending. -/
def apply (v : LevelViewer) : LevelViewer :=
  { v with currentLevel := levelMask v.selectedLevels }

/-- `sendCommand('setLevel', level)`, if the level is not zero. -/
def sendLevel (level : UInt32) : List API.LogServerCommand :=
  if 0 < level then [⟨"setLevel", level, []⟩] else []

end LevelViewer

/-- What happens to a viewer. -/
inductive LevelEvent where
  | click (level : PillLevel)
  | choose (preset : LevelPreset)
  /-- the button; whether `localStorage` can be written -/
  | apply (writable : Bool)
  /-- the event of the stream -/
  | connected
  /-- the connection is closed or has failed -/
  | disconnected

/-- What happens to the viewers: one is opened, and whether `localStorage` can be read; or an event
of one. -/
inductive LevelAction where
  | new (objectName : String) (readable : Bool)
  | event (i : ℕ) (e : LevelEvent)

namespace LevelViewer

/-- The viewer after an event. -/
def after (v : LevelViewer) : LevelEvent → LevelViewer
  | .click level => v.click level
  | .choose preset => v.choose preset
  | .apply _ => v.apply
  | .connected => { v with connected := true }
  | .disconnected => { v with connected := false }

/-- The commands that an event sends. -/
def sends (v : LevelViewer) : LevelEvent → List API.LogServerCommand
  | .apply _ => if v.connected then sendLevel v.apply.currentLevel else []
  | .connected => sendLevel v.currentLevel
  | _ => []

end LevelViewer

/-- A viewer after an event: the button applies the selection that the pills show. -/
def OpenViewer.after (v : OpenViewer) (e : LevelEvent) : OpenViewer where
  viewer := v.viewer.after e
  applied := match e with
    | .apply _ => v.viewer.selectedLevels
    | _ => v.applied

namespace LevelViewers

/-- One step. -/
def step (s : LevelViewers) : LevelAction → Option LevelViewers
  | .new objectName readable =>
    let saved := if readable then s.saved.lookup objectName else none
    some { s with viewers := s.viewers ++ [⟨.new objectName saved, saved.getD []⟩] }
  | .event i e =>
    (s.viewers[i]?).map fun v =>
      { viewers := s.viewers.set i (v.after e)
        saved := match e with
          | .apply true => s.saved.insert v.viewer.objectName v.viewer.selectedLevels
          | _ => s.saved }

/-- The commands that a step sends, with the viewer each is from. -/
def sends (s : LevelViewers) : LevelAction → List (OpenViewer × API.LogServerCommand)
  | .new _ _ => []
  | .event i e =>
    (s.viewers[i]?).toList.flatMap fun v => (v.viewer.sends e).map fun cmd => (v.after e, cmd)

end LevelViewers

/-- The log viewers of a browser. -/
def levelMachine : Machine LevelViewers LevelAction where
  init := ⟨[], ∅⟩
  step := LevelViewers.step

/-! ### What is sent -/

/-- A selection as the buttons make it: no level twice, and none beside `ANY`. -/
structure ValidSelection (levels : List PillLevel) : Prop where
  nodup : levels.Nodup
  alone : .any ∈ levels → levels = [.any]

/-- What holds of a viewer in every state. -/
structure OpenViewer.Inv (v : OpenViewer) : Prop where
  selected : ValidSelection v.viewer.selectedLevels
  applied : ValidSelection v.applied
  currentLevel : v.viewer.currentLevel = levelMask v.applied

theorem validSelection_nil : ValidSelection [] := ⟨List.nodup_nil, fun h => by cases h⟩

/-- Levels other than `ANY`. -/
theorem validSelection_of_notMem {levels : List PillLevel} (hnodup : levels.Nodup)
    (hany : .any ∉ levels) : ValidSelection levels := ⟨hnodup, fun h => absurd h hany⟩

theorem validSelection_levels (preset : LevelPreset) : ValidSelection preset.levels := by
  cases preset with
  | all => exact ⟨by decide, fun _ => rfl⟩
  | _ => exact validSelection_of_notMem (by decide) (by decide)

theorem OpenViewer.inv_new (objectName : String) {saved : Option (List PillLevel)}
    (h : ∀ levels ∈ saved, ValidSelection levels) :
    OpenViewer.Inv ⟨.new objectName saved, saved.getD []⟩ := by
  have hvalid : ValidSelection (saved.getD []) := by
    cases saved with
    | none => exact validSelection_nil
    | some levels => exact h levels rfl
  exact ⟨hvalid, hvalid, rfl⟩

/-- **A pill is switched alone**, but `ANY` goes with every other, and every other with `ANY`. -/
theorem validSelection_toggle {levels : List PillLevel} (h : ValidSelection levels)
    (level : PillLevel) : ValidSelection (LevelViewer.toggle levels level) := by
  unfold LevelViewer.toggle
  by_cases hlevel : level = .any
  · rw [if_pos hlevel]
    split_ifs
    · exact validSelection_nil
    · exact ⟨List.nodup_singleton _, fun _ => rfl⟩
  · rw [if_neg hlevel]
    have hrest : (levels.erase .any).Nodup := h.nodup.erase _
    have hany : .any ∉ levels.erase .any := h.nodup.not_mem_erase
    dsimp only
    split_ifs with hmem
    · exact validSelection_of_notMem (hrest.erase _) fun hin => hany (List.mem_of_mem_erase hin)
    · apply validSelection_of_notMem
      · exact hrest.append (List.nodup_singleton _) (by simpa using hmem)
      · intro hin
        rcases List.mem_append.mp hin with hin | hin
        · exact hany hin
        · exact hlevel (List.mem_singleton.mp hin).symm

theorem OpenViewer.Inv.after {v : OpenViewer} (h : v.Inv) (e : LevelEvent) : (v.after e).Inv := by
  cases e with
  | click level => exact ⟨validSelection_toggle h.selected level, h.applied, h.currentLevel⟩
  | choose preset => exact ⟨validSelection_levels preset, h.applied, h.currentLevel⟩
  | apply writable => exact ⟨h.selected, h.selected, rfl⟩
  | connected => exact ⟨h.selected, h.applied, h.currentLevel⟩
  | disconnected => exact ⟨h.selected, h.applied, h.currentLevel⟩

/-- What holds in every state. -/
structure LevelViewers.Inv (s : LevelViewers) : Prop where
  viewers : ∀ v ∈ s.viewers, v.Inv
  saved : ∀ objectName levels, s.saved.lookup objectName = some levels → ValidSelection levels

theorem LevelViewers.Inv.step {s t : LevelViewers} {a : LevelAction} (h : s.Inv)
    (hstep : s.step a = some t) : t.Inv := by
  cases a with
  | new objectName readable =>
    obtain rfl := Option.some.inj hstep
    refine ⟨?_, h.saved⟩
    show ∀ v ∈ s.viewers ++ [_], v.Inv
    rw [List.forall_mem_append, List.forall_mem_singleton]
    refine ⟨h.viewers, OpenViewer.inv_new objectName fun levels hlevels => ?_⟩
    split_ifs at hlevels with hreadable
    · exact h.saved objectName levels hlevels
    · cases hlevels
  | event i e =>
    obtain ⟨v, hv, rfl⟩ := Option.map_eq_some_iff.mp hstep
    have hinv := h.viewers v (List.mem_of_getElem? hv)
    constructor
    · intro w hw
      rcases List.mem_or_eq_of_mem_set hw with hw | rfl
      · exact h.viewers w hw
      · exact hinv.after e
    · cases e with
      | apply writable =>
        cases writable with
        | true => exact GoMap.forall_insert h.saved hinv.selected
        | false => exact h.saved
      | _ => exact h.saved

theorem LevelViewers.inv_of_reachable {s : LevelViewers} (h : levelMachine.Reachable s) : s.Inv :=
  Machine.Reachable.induction ⟨fun v hv => (by cases hv), fun _ _ hnone => (by cases hnone)⟩
    (fun _ _ _ _ hs hstep => hs.step hstep) h

/-- **What a viewer sends**: the mask of the selection that was applied last or loaded, which is one
that the buttons make and not empty.  It has the bits of the levels in it, and of the constants of
`logserver.LogLevel` those of the pills with the same value. -/
structure SendsLevels (applied : List PillLevel) (cmd : API.LogServerCommand) : Prop where
  told : (logCallOf cmd).map LogCall.told = some ⟨cmdSetLevel, levelMask applied, []⟩
  nonempty : applied ≠ []
  valid : ValidSelection applied
  levels : ∀ p, p ≠ .any → (HasBit (levelMask applied) p.value ↔ .any ∈ applied ∨ p ∈ applied)
  constants : ∀ l : LogLevel,
    HasBit (levelMask applied) l.value ↔ .any ∈ applied ∨ l.sameValue ∈ applied

theorem sameValue_ne_any (l : LogLevel) : l.sameValue ≠ .any := by
  cases l with
  | level k => revert k; decide
  | _ => decide

theorem sendsLevels_of_mem {v : OpenViewer} (h : v.Inv) {cmd : API.LogServerCommand}
    (hmem : cmd ∈ LevelViewer.sendLevel v.viewer.currentLevel) : SendsLevels v.applied cmd := by
  unfold LevelViewer.sendLevel at hmem
  split_ifs at hmem with hpos
  · rw [List.mem_singleton.mp hmem, h.currentLevel]
    rw [h.currentLevel] at hpos
    refine ⟨rfl, ?_, h.applied, fun p hp => hasBit_levelMask v.applied hp, ?_⟩
    · intro hnil
      rw [levelMask_eq_zero.mpr hnil] at hpos
      exact absurd hpos (by decide)
    · intro l
      rw [← value_sameValue]
      exact hasBit_levelMask v.applied (sameValue_ne_any l)
  · cases hmem

/-- **The levels that are sent**, in every run of any number of viewers. -/
theorem levels_sent {s : LevelViewers} (h : levelMachine.Reachable s) {a : LevelAction}
    {v : OpenViewer} {cmd : API.LogServerCommand} (hsend : (v, cmd) ∈ s.sends a) :
    SendsLevels v.applied cmd := by
  have hinv := LevelViewers.inv_of_reachable h
  cases a with
  | new objectName readable => cases hsend
  | event i e =>
    obtain ⟨w, hw, hmem⟩ := List.mem_flatMap.mp hsend
    obtain ⟨cmd', hcmd, heq⟩ := List.mem_map.mp hmem
    obtain ⟨rfl, rfl⟩ := Prod.ext_iff.mp heq
    have hwinv := hinv.viewers w (List.mem_of_getElem? (Option.mem_toList.mp hw))
    apply sendsLevels_of_mem (hwinv.after e)
    cases e with
    | apply writable =>
      unfold LevelViewer.sends at hcmd
      split_ifs at hcmd with hconnected
      · exact hcmd
      · cases hcmd
    | connected => exact hcmd
    | click _ => cases hcmd
    | choose _ => cases hcmd
    | disconnected => cases hcmd

/-- `DEBUG` was applied on one page, and another one was opened. -/
def reopened : LevelViewers where
  viewers := [⟨⟨"Pump", [.debug], 8, false⟩, [.debug]⟩, ⟨⟨"Pump", [.debug], 8, false⟩, [.debug]⟩]
  saved := Finmap.insert "Pump" [.debug] ∅

theorem levels_sent_reopened : SendsLevels [.debug] ⟨"setLevel", 8, []⟩ :=
  @levels_sent reopened ⟨[.new "Pump" true, .event 0 (.click .debug), .event 0 (.apply true),
    .new "Pump" true], rfl⟩ (.event 1 .connected)
    ⟨⟨"Pump", [.debug], 8, true⟩, [.debug]⟩ _ (List.mem_singleton.mpr rfl)

end UnisetPanel
