/-
  The loop of `HandleLogServerStream`, which hands the lines of a log on to the
  browser in batches.

  A line is appended to the batch; the batch is written when it is full, on a
  tick, when the channel of the lines is closed and when the client goes away.
  One buffer serves for all batches: after a batch was written its elements are
  forgotten (`batch[:0]`) and their places used again, which is safe because
  `sendLogBatch` has written them by then.

  In every run the written batches are the lines received, in order, as far as
  they have been written, and all of them after a tick and at the end
  (`batches_correct`).
-/
import UnisetPanel.ByteText
import UnisetPanel.GoSlice
import UnisetPanel.Machine
import Mathlib.Data.Int.Notation
import Mathlib.Tactic.SplitIfs

namespace UnisetPanel

/-- An event of the stream, after `connected`. -/
inductive LogStreamEvent where
  /-- `event: logs`, with the lines of a batch -/
  | logs (lines : List Bytes)
  /-- `event: disconnected` -/
  | disconnected
  deriving DecidableEq

/-- The lines of a batch. -/
def LogStreamEvent.batch : LogStreamEvent → Option (List Bytes)
  | .logs lines => some lines
  | .disconnected => none

/-- `GetBatchSize`; `none` is a missing configuration. -/
def getBatchSize (batchSize : Option ℤ) : ℕ :=
  match batchSize with
  | none => 500
  | some n => if n ≤ 0 then 500 else n.toNat

/-- The configured size is positive. -/
theorem getBatchSize_pos (batchSize : Option ℤ) : 0 < getBatchSize batchSize := by
  unfold getBatchSize
  split
  · decide
  · split_ifs
    · decide
    · omega

/-- What the `select` of the loop receives. -/
inductive LoopEvent where
  /-- a line of `stream.Lines` -/
  | line (line : Bytes)
  /-- `stream.Lines` is closed, and has no line left -/
  | closed
  /-- `ticker.C` -/
  | tick
  /-- `ctx.Done()` -/
  | done
  deriving DecidableEq

/-- The state of the loop. -/
structure BatchLoop where
  batch : GoSlice Bytes
  /-- the events written, oldest first -/
  written : List LogStreamEvent
  returned : Bool

namespace BatchLoop

/-- Before the loop: `batch := make([]string, 0, batchSize)`. -/
def new (batchSize : ℕ) : BatchLoop := ⟨.make [] batchSize, [], false⟩

variable (s : BatchLoop)

/-- `sendLogBatch`: a list of strings is always marshalled. -/
def sendLogBatch : BatchLoop := { s with written := s.written ++ [.logs s.batch.elems] }

/-- `if len(batch) > 0 { h.sendLogBatch(w, flusher, batch) }`. -/
def sendRest : BatchLoop := if 0 < s.batch.len then s.sendLogBatch else s

/-- A batch is sent, and its places are free again: `batch = batch[:0]`. -/
def flush : BatchLoop := { s.sendLogBatch with batch := s.batch.clear }

/-- One pass of the loop. -/
def pass (batchSize : ℕ) (s : BatchLoop) : LoopEvent → BatchLoop
  | .done => { s.sendRest with returned := true }
  | .closed =>
    let s := s.sendRest
    { s with written := s.written ++ [.disconnected], returned := true }
  | .line line =>
    let s := { s with batch := s.batch.append line }
    if batchSize ≤ s.batch.len then s.flush else s
  | .tick => if 0 < s.batch.len then s.flush else s

/-- The loop goes on until it returns. -/
def step (batchSize : ℕ) (s : BatchLoop) (e : LoopEvent) : Option BatchLoop :=
  if s.returned = true then none else some (s.pass batchSize e)

/-- The batches written so far. -/
def batches : List (List Bytes) := s.written.filterMap LogStreamEvent.batch

/-- The lines written so far. -/
def sentLines : List Bytes := s.batches.flatten

end BatchLoop

/-- The runs of the loop. -/
def batchMachine (batchSize : ℕ) : Machine BatchLoop LoopEvent where
  init := .new batchSize
  step := BatchLoop.step batchSize

/-- The lines among the events. -/
def receivedLines (es : List LoopEvent) : List Bytes :=
  es.filterMap fun e => match e with
    | .line line => some line
    | _ => none

namespace BatchLoop

variable {batchSize : ℕ} {s t : BatchLoop} {es : List LoopEvent}

/-! ### What is written -/

theorem batches_sendLogBatch (s : BatchLoop) :
    s.sendLogBatch.batches = s.batches ++ [s.batch.elems] := by
  simp [batches, sendLogBatch, LogStreamEvent.batch]

theorem sentLines_sendLogBatch (s : BatchLoop) :
    s.sendLogBatch.sentLines = s.sentLines ++ s.batch.elems := by
  simp [sentLines, batches_sendLogBatch]

/-- Nothing is left to send where the batch is empty. -/
theorem sentLines_sendRest (s : BatchLoop) :
    s.sendRest.sentLines = s.sentLines ++ s.batch.elems := by
  unfold sendRest
  split_ifs with h
  · exact s.sentLines_sendLogBatch
  · have hnil : s.batch.elems = [] := by
      rw [← List.length_eq_zero_iff, GoSlice.length_elems]
      omega
    rw [hnil, List.append_nil]

/-! ### The invariant -/

/-- Every batch has a line at least, and `batchSize` lines at most. -/
def SizesOK (batchSize : ℕ) (bs : List (List Bytes)) : Prop :=
  ∀ b ∈ bs, b ≠ [] ∧ b.length ≤ batchSize

theorem SizesOK.concat {bs : List (List Bytes)} {b : List Bytes} (h : SizesOK batchSize bs)
    (hpos : 0 < b.length) (hle : b.length ≤ batchSize) : SizesOK batchSize (bs ++ [b]) := by
  intro b' hb'
  rcases List.mem_append.mp hb' with hb' | hb'
  · exact h b' hb'
  · rw [List.mem_singleton.mp hb']
    exact ⟨List.ne_nil_of_length_pos hpos, hle⟩

/-- **The invariant**: what was received is what was written, followed by the batch as long as the
loop runs; and the batch has room for a line. -/
structure Sound (batchSize : ℕ) (es : List LoopEvent) (s : BatchLoop) : Prop where
  sizes : SizesOK batchSize s.batches
  running : s.returned = false → receivedLines es = s.sentLines ++ s.batch.elems ∧
    s.batch.len < batchSize ∧ s.batch.cap = batchSize
  ended : s.returned = true → receivedLines es = s.sentLines

theorem sound_new (hpos : 0 < batchSize) : Sound batchSize [] (new batchSize) where
  sizes := fun _ hb => absurd hb List.not_mem_nil
  running _ := ⟨rfl, hpos, GoSlice.cap_make [] batchSize⟩
  ended h := nomatch h

theorem receivedLines_concat (es : List LoopEvent) (e : LoopEvent) :
    receivedLines (es ++ [e]) = receivedLines es ++ receivedLines [e] := List.filterMap_append

/-- The rest is sent, and the loop returns. -/
theorem Sound.sendRest (h : Sound batchSize es s) (hrun : s.returned = false) :
    SizesOK batchSize s.sendRest.batches ∧ receivedLines es = s.sendRest.sentLines := by
  obtain ⟨hrec, hlt, -⟩ := h.running hrun
  refine ⟨?_, by rw [hrec, sentLines_sendRest]⟩
  unfold BatchLoop.sendRest
  split_ifs with hpos
  · rw [batches_sendLogBatch]
    refine h.sizes.concat ?_ ?_ <;> rw [GoSlice.length_elems]
    · exact hpos
    · exact Nat.le_of_lt hlt
  · exact h.sizes

/-- A full batch, or what there is of one, is sent and forgotten. -/
theorem sound_flush (hpos : 0 < batchSize) (hsizes : SizesOK batchSize s.batches)
    (hrec : receivedLines es = s.sentLines ++ s.batch.elems) (hlen : 0 < s.batch.len)
    (hle : s.batch.len ≤ batchSize) (hcap : s.batch.cap = batchSize)
    (hrun : s.returned = false) :
    Sound batchSize es s.flush ∧ receivedLines es = s.flush.sentLines := by
  have hsent : receivedLines es = s.sendLogBatch.sentLines := by rw [hrec, sentLines_sendLogBatch]
  refine ⟨⟨?_, fun _ => ⟨?_, hpos, hcap⟩, fun hret => ?_⟩, hsent⟩
  · show SizesOK batchSize s.sendLogBatch.batches
    rw [batches_sendLogBatch]
    refine hsizes.concat ?_ ?_ <;> rw [GoSlice.length_elems]
    · exact hlen
    · exact hle
  · show _ = s.sendLogBatch.sentLines ++ s.batch.clear.elems
    rw [GoSlice.elems_clear, List.append_nil]
    exact hsent
  · exact absurd (hrun.symm.trans hret) Bool.false_ne_true

theorem Sound.done (h : Sound batchSize es s) (hrun : s.returned = false) :
    Sound batchSize (es ++ [.done]) (s.pass batchSize .done) := by
  obtain ⟨hsizes, hsent⟩ := h.sendRest hrun
  refine ⟨hsizes, nofun, fun _ => ?_⟩
  rw [receivedLines_concat]
  exact (List.append_nil _).trans hsent

theorem Sound.closed (h : Sound batchSize es s) (hrun : s.returned = false) :
    Sound batchSize (es ++ [.closed]) (s.pass batchSize .closed) := by
  obtain ⟨hsizes, hsent⟩ := h.sendRest hrun
  -- the last event is no batch
  have hbatches : (s.pass batchSize .closed).batches = s.sendRest.batches := by
    simp [pass, batches, LogStreamEvent.batch]
  refine ⟨by rw [hbatches]; exact hsizes, nofun, fun _ => ?_⟩
  rw [receivedLines_concat, sentLines, hbatches]
  exact (List.append_nil _).trans hsent

theorem Sound.line (hpos : 0 < batchSize) (h : Sound batchSize es s) (hrun : s.returned = false)
    (line : Bytes) : Sound batchSize (es ++ [.line line]) (s.pass batchSize (.line line)) := by
  obtain ⟨hrec, hlt, hcap⟩ := h.running hrun
  have hline : receivedLines (es ++ [.line line]) = s.sentLines ++ (s.batch.append line).elems := by
    rw [receivedLines_concat, hrec, GoSlice.elems_append, List.append_assoc]
    rfl
  have hlen : (s.batch.append line).len = s.batch.len + 1 := by
    rw [← GoSlice.length_elems, GoSlice.elems_append, List.length_append, GoSlice.length_elems,
      List.length_singleton]
  have hcap' : (s.batch.append line).cap = batchSize := by
    rw [s.batch.cap_append_of_lt line (by omega), hcap]
  simp only [pass]
  split_ifs with hfull
  · exact (sound_flush (s := { s with batch := s.batch.append line }) hpos h.sizes hline
      (by simp only [hlen]; omega) (by simp only [hlen]; omega) hcap' hrun).1
  · exact ⟨h.sizes, fun _ => ⟨hline, Nat.lt_of_not_le hfull, hcap'⟩,
      fun hret => absurd (hrun.symm.trans hret) Bool.false_ne_true⟩

/-- After a tick everything has been sent. -/
theorem Sound.tick (hpos : 0 < batchSize) (h : Sound batchSize es s) (hrun : s.returned = false) :
    Sound batchSize (es ++ [.tick]) (s.pass batchSize .tick) ∧
      receivedLines (es ++ [.tick]) = (s.pass batchSize .tick).sentLines := by
  obtain ⟨hrec, hlt, hcap⟩ := h.running hrun
  have htick : receivedLines (es ++ [.tick]) = receivedLines es := by
    rw [receivedLines_concat]
    exact List.append_nil _
  rw [← htick] at hrec
  simp only [pass]
  split_ifs with hlen
  · exact sound_flush hpos h.sizes hrec hlen (Nat.le_of_lt hlt) hcap hrun
  · refine ⟨⟨h.sizes, fun _ => ⟨hrec, hlt, hcap⟩,
      fun hret => absurd (hrun.symm.trans hret) Bool.false_ne_true⟩, ?_⟩
    have hnil : s.batch.elems = [] := by
      rw [← List.length_eq_zero_iff, GoSlice.length_elems]
      omega
    rw [hrec, hnil, List.append_nil]

theorem step_eq_some {e : LoopEvent} (h : s.step batchSize e = some t) :
    s.returned = false ∧ t = s.pass batchSize e := by
  obtain ⟨hret, heq⟩ := Option.ite_none_left_eq_some.mp h
  exact ⟨Bool.eq_false_iff.mpr hret, (Option.some.inj heq).symm⟩

/-- **A pass of the loop keeps the invariant.** -/
theorem Sound.step (hpos : 0 < batchSize) (h : Sound batchSize es s) {e : LoopEvent}
    (hstep : s.step batchSize e = some t) : Sound batchSize (es ++ [e]) t := by
  obtain ⟨hrun, rfl⟩ := step_eq_some hstep
  cases e with
  | line line => exact h.line hpos hrun line
  | closed => exact h.closed hrun
  | tick => exact (h.tick hpos hrun).1
  | done => exact h.done hrun

/-- **The invariant holds in every run.** -/
theorem sound_of_run (hpos : 0 < batchSize)
    (hrun : (batchMachine batchSize).run (batchMachine batchSize).init es = some s) :
    Sound batchSize es s :=
  Machine.history_induction (P := Sound batchSize) (sound_new hpos)
    (fun _ _ _ _ _ h hstep => h.step hpos hstep) hrun

end BatchLoop

open BatchLoop

/-- **Batching loses nothing.** In every run of the loop the batches written are non-empty and have
at most `batchSize` lines; put together they are a prefix of the lines received, and all of these
right after a tick and when the loop has returned. -/
theorem batches_correct (batchSize : ℕ) (hpos : 0 < batchSize) (es : List LoopEvent)
    (s : BatchLoop)
    (hrun : (batchMachine batchSize).run (batchMachine batchSize).init es = some s) :
    (∀ b ∈ s.batches, b ≠ [] ∧ b.length ≤ batchSize) ∧
    s.batches.flatten <+: receivedLines es ∧
    (es.getLast? = some .tick ∨ s.returned = true → s.batches.flatten = receivedLines es) := by
  have h := sound_of_run hpos hrun
  refine ⟨h.sizes, ?_, ?_⟩
  · cases hret : s.returned with
    | false => exact ⟨s.batch.elems, (h.running hret).1.symm⟩
    | true =>
      rw [h.ended hret]
      exact List.prefix_refl _
  · rintro (hlast | hret)
    · obtain ⟨es, rfl⟩ := List.getLast?_eq_some_iff.mp hlast
      obtain ⟨s₀, hs₀, hstep⟩ := (batchMachine batchSize).run_concat_eq_some.mp hrun
      obtain ⟨hrun₀, rfl⟩ := step_eq_some hstep
      exact ((sound_of_run hpos hs₀).tick hpos hrun₀).2.symm
    · exact (h.ended hret).symm

/-- Three lines in batches of two, and the client goes away. -/
def threeLines : List LoopEvent := [.line [97], .line [98], .line [99], .done]

theorem batches_correct_threeLines :
    ∃ s, (batchMachine 2).run (batchMachine 2).init threeLines = some s ∧
      s.batches = [[[97], [98]], [[99]]] ∧ s.batches.flatten = receivedLines threeLines :=
  ⟨_, rfl, rfl, (batches_correct 2 (by decide) threeLines _ rfl).2.2 (Or.inr rfl)⟩

/-- **The buffer is never replaced**: as long as the loop runs, it has the capacity it was made
with, the configured size. -/
theorem cap_batch_of_run {config : Option ℤ} {es : List LoopEvent} {s : BatchLoop}
    (hrun : (batchMachine (getBatchSize config)).run (batchMachine (getBatchSize config)).init es
      = some s) (hret : s.returned = false) : s.batch.cap = getBatchSize config :=
  ((sound_of_run (getBatchSize_pos config) hrun).running hret).2.2

end UnisetPanel
