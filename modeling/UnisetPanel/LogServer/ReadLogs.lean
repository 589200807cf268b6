/-
  `Client.ReadLogs`: the lines of a log, read from a connection with a deadline.

  `readLogs` is what the callback is given, for the results that the reads of
  the connection have one after the other: some bytes, or a timeout.
  `ReadString` returns what it has of a line together with a timeout, and the
  loop goes on without it, so that of a line that is slow to come only the end
  is given (`not_reassembles`).

  The callback is given the complete lines of the stream if and only if no
  timeout falls into a line that is completed later (`reassembles_iff`).
-/
import UnisetPanel.Lines

namespace UnisetPanel

/-! ### The source -/

/-- The byte `'\n'`. -/
def newline : UInt8 := 10

/-- The result of one `Read` of the connection. -/
inductive NetRead where
  | data (bytes : List UInt8)
  | timeout
  deriving DecidableEq

/-- The first line in a buffer with its `'\n'`, and what stands after it. -/
def cutLine (buffered : List UInt8) : Option (List UInt8 × List UInt8) :=
  if newline ∈ buffered then
    some (buffered.takeWhile (· ≠ newline) ++ [newline],
      (buffered.dropWhile (· ≠ newline)).tail)
  else none

/-- What `ReadString` returns. -/
inductive ReadResult where
  | line (text : List UInt8)
  | timeout (text : List UInt8)

/-- `bufio.Reader.ReadString('\n')`: the result, what is buffered after it and the reads still to
come; `none` while it waits for more. -/
def readString (buffered : List UInt8) (reads : List NetRead) :
    Option (ReadResult × List UInt8 × List NetRead) :=
  match cutLine buffered with
  | some (line, rest) => some (.line line, rest, reads)
  | none =>
    match reads with
    | [] => none
    | .data bytes :: reads => readString (buffered ++ bytes) reads
    | .timeout :: reads => some (.timeout buffered, [], reads)

/-- The loop of `ReadLogs`, at most `fuel` times: what the callback is given. -/
def readLogsFrom (fuel : ℕ) (buffered : List UInt8) (reads : List NetRead) : List (List UInt8) :=
  match fuel with
  | 0 => []
  | fuel + 1 =>
    match readString buffered reads with
    | none => []
    | some (.line line, buffered, reads) => line :: readLogsFrom fuel buffered reads
    -- `continue`: the text is dropped
    | some (.timeout _, buffered, reads) => readLogsFrom fuel buffered reads

/-- The bytes of a read. -/
def NetRead.bytes : NetRead → List UInt8
  | data bytes => bytes
  | timeout => []

/-- The bytes that the server has sent. -/
def sentBytes (reads : List NetRead) : List UInt8 := reads.flatMap NetRead.bytes

/-- `ReadLogs` on a new connection: what the callback is given.  Every round of the loop uses up a
read or a byte. -/
def readLogs (reads : List NetRead) : List (List UInt8) :=
  readLogsFrom ((sentBytes reads).length + reads.length + 1) [] reads

/-- **The callback is given the complete lines of the stream**, in order. -/
def Reassembles (reads : List NetRead) : Prop :=
  readLogs reads = Lines.complete newline (sentBytes reads)

/-- No timeout falls into a line that is completed later. -/
def NoTimeoutInLine (reads : List NetRead) : Prop :=
  ∀ pre post, reads = pre ++ .timeout :: post →
    Lines.rest newline (sentBytes pre) = [] ∨ newline ∉ sentBytes post

/-! ### A slow line -/

/-- `ab`, a timeout, and `c\n`. -/
def slowLine : List NetRead := [.data [97, 98], .timeout, .data [99, 10]]

/-- **It fails**: of the line `abc` the callback is given `c`. -/
theorem not_reassembles : ¬ ∀ reads, Reassembles reads := by
  intro h
  have hslow : readLogs slowLine = Lines.complete newline (sentBytes slowLine) := h slowLine
  exact absurd hslow (by decide)

/-! ### One call of `ReadString` -/

variable {buffered : List UInt8} {reads : List NetRead}

/-- The first line is cut off. -/
theorem cutLine_append {text : List UInt8} (htext : newline ∉ text) (after : List UInt8) :
    cutLine (text ++ newline :: after) = some (text ++ [newline], after) := by
  have hall : ∀ x ∈ text, decide (x ≠ newline) = true := by
    intro x hx
    exact decide_eq_true fun heq => htext (heq ▸ hx)
  have htake : (text ++ newline :: after).takeWhile (· ≠ newline) = text := by
    rw [List.takeWhile_append_of_pos hall, List.takeWhile_cons_of_neg (by simp), List.append_nil]
  have hdrop : (text ++ newline :: after).dropWhile (· ≠ newline) = newline :: after := by
    rw [List.dropWhile_append_of_pos hall, List.dropWhile_cons_of_neg (by simp)]
  have hmem : newline ∈ text ++ newline :: after := List.mem_append_right _ List.mem_cons_self
  unfold cutLine
  rw [if_pos hmem, htake, hdrop]
  rfl

theorem cutLine_eq_none_iff : cutLine buffered = none ↔ newline ∉ buffered := by
  unfold cutLine
  split_ifs with h
  · exact iff_of_false (by simp) fun hn => hn h
  · exact iff_of_true rfl h

theorem eq_of_cutLine_eq_some {line after : List UInt8} (h : cutLine buffered = some (line, after)) :
    ∃ text, newline ∉ text ∧ line = text ++ [newline] ∧ buffered = text ++ newline :: after := by
  have hmem : newline ∈ buffered := by
    by_contra hn
    rw [cutLine_eq_none_iff.mpr hn] at h
    cases h
  obtain ⟨text, after', rfl, htext⟩ := List.eq_append_cons_of_mem hmem
  rw [cutLine_append htext] at h
  obtain ⟨rfl, rfl⟩ := Prod.mk.inj (Option.some.inj h)
  exact ⟨text, htext, rfl, rfl⟩

/-- A complete line is returned without a read. -/
theorem readString_of_mem (h : newline ∈ buffered) (reads : List NetRead) : ∃ line after,
    readString buffered reads = some (.line line, after, reads) ∧ line ++ after = buffered ∧
      line ≠ [] ∧ Lines.complete newline buffered = line :: Lines.complete newline after ∧
      Lines.rest newline buffered = Lines.rest newline after := by
  obtain ⟨text, after, rfl, htext⟩ := List.eq_append_cons_of_mem h
  obtain ⟨hcomplete, hrest⟩ := Lines.split_line htext after
  refine ⟨text ++ [newline], after, ?_, by simp, by simp, hcomplete, hrest⟩
  unfold readString
  rw [cutLine_append htext]

theorem readString_nil (h : newline ∉ buffered) : readString buffered [] = none := by
  unfold readString
  rw [cutLine_eq_none_iff.mpr h]

theorem readString_data (h : newline ∉ buffered) (bytes : List UInt8) :
    readString buffered (.data bytes :: reads) = readString (buffered ++ bytes) reads := by
  rw [readString.eq_def, cutLine_eq_none_iff.mpr h]

theorem readString_timeout (h : newline ∉ buffered) :
    readString buffered (.timeout :: reads) = some (.timeout buffered, [], reads) := by
  unfold readString
  rw [cutLine_eq_none_iff.mpr h]

/-! ### The loop -/

theorem sentBytes_data_cons (bytes : List UInt8) (reads : List NetRead) :
    sentBytes (.data bytes :: reads) = bytes ++ sentBytes reads := rfl

theorem sentBytes_timeout_cons (reads : List NetRead) :
    sentBytes (.timeout :: reads) = sentBytes reads := rfl

/-- What the callback is given, read by read: the lines that end with this read, and the line that
has not ended is kept until a timeout. -/
def linesOf (buffered : List UInt8) : List NetRead → List (List UInt8)
  | [] => []
  | .data bytes :: reads =>
    Lines.complete newline (buffered ++ bytes) ++
      linesOf (Lines.rest newline (buffered ++ bytes)) reads
  | .timeout :: reads => linesOf [] reads

/-- **The loop, read by read.** Fuel for every byte and every read is enough. -/
theorem readLogsFrom_eq {fuel : ℕ}
    (hfuel : buffered.length + ((sentBytes reads).length + reads.length) < fuel) :
    readLogsFrom fuel buffered reads =
      Lines.complete newline buffered ++ linesOf (Lines.rest newline buffered) reads := by
  generalize hn : buffered.length + ((sentBytes reads).length + reads.length) = n at hfuel
  induction n using Nat.strongRecOn generalizing fuel buffered reads with
  | _ n ih =>
    obtain ⟨fuel, rfl⟩ : ∃ m, fuel = m + 1 := ⟨fuel - 1, by omega⟩
    by_cases hmem : newline ∈ buffered
    · obtain ⟨line, after, hread, hparts, hline, hcomplete, hrest⟩ := readString_of_mem hmem reads
      have hlength : 0 < line.length := List.length_pos_of_ne_nil hline
      have hsum : line.length + after.length = buffered.length := by
        rw [← hparts, List.length_append]
      have hlt : after.length + ((sentBytes reads).length + reads.length) < n := by omega
      rw [readLogsFrom, hread, hcomplete, hrest]
      show line :: readLogsFrom fuel after reads = _
      rw [ih _ hlt rfl (by omega)]
      rfl
    · obtain ⟨hcomplete, hrest⟩ := Lines.split_of_notMem hmem
      rw [hcomplete, hrest, List.nil_append]
      cases reads with
      | nil =>
        rw [readLogsFrom, readString_nil hmem]
        rfl
      | cons read reads =>
        rw [List.length_cons] at hn
        cases read with
        | data bytes =>
          rw [sentBytes_data_cons, List.length_append] at hn
          -- the call of `ReadString` goes on with the longer buffer
          have hlength : (buffered ++ bytes).length = buffered.length + bytes.length :=
            List.length_append
          have hlt : (buffered ++ bytes).length + ((sentBytes reads).length + reads.length) < n := by
            omega
          have hcall : readLogsFrom (fuel + 1) buffered (.data bytes :: reads) =
              readLogsFrom (fuel + 1) (buffered ++ bytes) reads := by
            rw [readLogsFrom, readString_data hmem, readLogsFrom]
          rw [hcall, ih _ hlt rfl (by omega)]
          rfl
        | timeout =>
          rw [sentBytes_timeout_cons] at hn
          have hlt : ([] : List UInt8).length + ((sentBytes reads).length + reads.length) < n := by
            rw [List.length_nil]
            omega
          rw [readLogsFrom, readString_timeout hmem]
          show readLogsFrom fuel [] reads = linesOf [] reads
          rw [ih _ hlt rfl (by omega)]
          rfl

/-- `ReadLogs` on a new connection, read by read. -/
theorem readLogs_eq (reads : List NetRead) : readLogs reads = linesOf [] reads := by
  unfold readLogs
  have hfuel : ([] : List UInt8).length + ((sentBytes reads).length + reads.length) <
      (sentBytes reads).length + reads.length + 1 := by
    rw [List.length_nil]
    omega
  rw [readLogsFrom_eq hfuel]
  rfl

/-! ### Exactly when nothing is lost -/

theorem sentBytes_append (pre post : List NetRead) :
    sentBytes (pre ++ post) = sentBytes pre ++ sentBytes post :=
  List.flatMap_append

/-- Without a `'\n'` nothing is given. -/
theorem linesOf_of_notMem (hbuffered : newline ∉ buffered) (h : newline ∉ sentBytes reads) :
    linesOf buffered reads = [] := by
  induction reads generalizing buffered with
  | nil => rfl
  | cons read reads ih =>
    have hboth : newline ∉ read.bytes ∧ newline ∉ sentBytes reads := by
      rw [sentBytes, List.flatMap_cons, List.mem_append, not_or] at h
      exact h
    cases read with
    | data bytes =>
      have hmem : newline ∉ buffered ++ bytes := by
        rw [List.mem_append, not_or]
        exact ⟨hbuffered, hboth.1⟩
      obtain ⟨hcomplete, hrest⟩ := Lines.split_of_notMem hmem
      show Lines.complete newline (buffered ++ bytes) ++ _ = []
      rw [hcomplete, hrest]
      exact ih hmem hboth.2
    | timeout => exact ih List.not_mem_nil hboth.2

/-- A text before the first `'\n'` lengthens what is completed. -/
theorem length_complete_append (hbuffered : newline ∉ buffered) {xs : List UInt8}
    (h : newline ∈ xs) :
    (Lines.complete newline (buffered ++ xs)).flatten.length =
      buffered.length + (Lines.complete newline xs).flatten.length := by
  obtain ⟨text, after, rfl, htext⟩ := List.eq_append_cons_of_mem h
  have hboth : newline ∉ buffered ++ text := by
    rw [List.mem_append, not_or]
    exact ⟨hbuffered, htext⟩
  rw [← List.append_assoc, (Lines.split_line hboth after).1, (Lines.split_line htext after).1]
  simp only [List.flatten_cons, List.length_append]
  omega

/-- No more is given than the complete lines of the stream. -/
theorem length_linesOf_le (hbuffered : newline ∉ buffered) :
    (linesOf buffered reads).flatten.length ≤
      (Lines.complete newline (buffered ++ sentBytes reads)).flatten.length := by
  induction reads generalizing buffered with
  | nil => exact Nat.zero_le _
  | cons read reads ih =>
    cases read with
    | data bytes =>
      have hstream : buffered ++ sentBytes (.data bytes :: reads) =
          (buffered ++ bytes) ++ sentBytes reads := (List.append_assoc _ _ _).symm
      have hrest := ih (Lines.notMem_rest (d := newline) (buffered ++ bytes))
      rw [hstream, Lines.complete_append]
      show (Lines.complete newline (buffered ++ bytes) ++ linesOf _ reads).flatten.length ≤ _
      rw [List.flatten_append, List.flatten_append, List.length_append, List.length_append]
      omega
    | timeout =>
      have hnone := ih List.not_mem_nil
      rw [List.nil_append] at hnone
      show (linesOf [] reads).flatten.length ≤
        (Lines.complete newline (buffered ++ sentBytes reads)).flatten.length
      by_cases hmem : newline ∈ sentBytes reads
      · have hlength := length_complete_append hbuffered hmem
        omega
      · rw [linesOf_of_notMem List.not_mem_nil hmem]
        exact Nat.zero_le _

/-- No timeout falls into a line that is completed later, where `buffered` was read before. -/
def NoTimeoutAfter (buffered : List UInt8) (reads : List NetRead) : Prop :=
  ∀ pre post, reads = pre ++ .timeout :: post →
    Lines.rest newline (buffered ++ sentBytes pre) = [] ∨ newline ∉ sentBytes post

theorem noTimeoutAfter_nil (buffered : List UInt8) : NoTimeoutAfter buffered [] := by
  intro pre post h
  cases pre <;> cases h

theorem noTimeoutAfter_data (buffered bytes : List UInt8) (reads : List NetRead) :
    NoTimeoutAfter buffered (.data bytes :: reads) ↔
      NoTimeoutAfter (Lines.rest newline (buffered ++ bytes)) reads := by
  constructor
  · intro h pre post hreads
    rw [← Lines.rest_append, List.append_assoc]
    exact h (.data bytes :: pre) post (congrArg _ hreads)
  · intro h pre post hreads
    cases pre with
    | nil => cases hreads
    | cons first pre =>
      obtain ⟨rfl, htail⟩ := List.cons.inj hreads
      rw [sentBytes_data_cons, ← List.append_assoc, Lines.rest_append]
      exact h pre post htail

/-- A timeout finds no line begun, or none is completed any more. -/
theorem noTimeoutAfter_timeout (hbuffered : newline ∉ buffered) (reads : List NetRead) :
    NoTimeoutAfter buffered (.timeout :: reads) ↔
      (buffered = [] ∨ newline ∉ sentBytes reads) ∧ NoTimeoutAfter [] reads := by
  have hlater : ∀ pre post, reads = pre ++ .timeout :: post → newline ∉ sentBytes reads →
      newline ∉ sentBytes post := by
    intro pre post hreads hnone hpost
    apply hnone
    rw [hreads, sentBytes_append, sentBytes_timeout_cons]
    exact List.mem_append_right _ hpost
  constructor
  · intro h
    have hnow : buffered = [] ∨ newline ∉ sentBytes reads := by
      have hfirst := h [] reads rfl
      have hempty : buffered ++ sentBytes [] = buffered := List.append_nil _
      rw [hempty, (Lines.split_of_notMem hbuffered).2] at hfirst
      exact hfirst
    refine ⟨hnow, ?_⟩
    intro pre post hreads
    rcases hnow with rfl | hnone
    · exact h (.timeout :: pre) post (congrArg _ hreads)
    · exact Or.inr (hlater pre post hreads hnone)
  · rintro ⟨hnow, h⟩ pre post hreads
    cases pre with
    | nil =>
      obtain ⟨-, rfl⟩ := List.cons.inj hreads
      have hempty : buffered ++ sentBytes [] = buffered := List.append_nil _
      rw [hempty, (Lines.split_of_notMem hbuffered).2]
      exact hnow
    | cons first pre =>
      obtain ⟨rfl, htail⟩ := List.cons.inj hreads
      rcases hnow with rfl | hnone
      · exact h pre post htail
      · exact Or.inr (hlater pre post htail hnone)

/-- What a timeout drops is missing for good, if a line is completed later. -/
theorem linesOf_nil_eq_iff (hbuffered : newline ∉ buffered) (reads : List NetRead) :
    linesOf [] reads = Lines.complete newline (buffered ++ sentBytes reads) ↔
      (buffered = [] ∨ newline ∉ sentBytes reads) ∧
        linesOf [] reads = Lines.complete newline ([] ++ sentBytes reads) := by
  by_cases hmem : newline ∈ sentBytes reads
  · constructor
    · intro heq
      have hle : (linesOf [] reads).flatten.length ≤
          (Lines.complete newline ([] ++ sentBytes reads)).flatten.length :=
        length_linesOf_le List.not_mem_nil
      have hlength := length_complete_append hbuffered hmem
      rw [← heq] at hlength
      rw [List.nil_append] at hle
      have hempty : buffered = [] := List.eq_nil_of_length_eq_zero (by omega)
      rw [hempty] at heq
      exact ⟨Or.inl hempty, heq⟩
    · rintro ⟨hnow, heq⟩
      rcases hnow with rfl | hnone
      · exact heq
      · exact absurd hmem hnone
  · have hnotMem : newline ∉ buffered ++ sentBytes reads := by
      rw [List.mem_append, not_or]
      exact ⟨hbuffered, hmem⟩
    rw [linesOf_of_notMem List.not_mem_nil hmem, (Lines.split_of_notMem hnotMem).1,
      List.nil_append, (Lines.split_of_notMem hmem).1]
    exact iff_of_true rfl ⟨Or.inr hmem, rfl⟩

/-- The lines that are given are those of the stream if and only if no timeout falls into a line
that is completed later. -/
theorem linesOf_eq_iff (hbuffered : newline ∉ buffered) :
    linesOf buffered reads = Lines.complete newline (buffered ++ sentBytes reads) ↔
      NoTimeoutAfter buffered reads := by
  induction reads generalizing buffered with
  | nil =>
    have hnone : Lines.complete newline (buffered ++ sentBytes []) = [] := by
      rw [show buffered ++ sentBytes [] = buffered from List.append_nil _]
      exact (Lines.split_of_notMem hbuffered).1
    exact iff_of_true hnone.symm (noTimeoutAfter_nil buffered)
  | cons read reads ih =>
    cases read with
    | data bytes =>
      rw [noTimeoutAfter_data, ← ih (Lines.notMem_rest (d := newline) (buffered ++ bytes)),
        sentBytes_data_cons, ← List.append_assoc, Lines.complete_append]
      exact List.append_right_inj _
    | timeout =>
      rw [noTimeoutAfter_timeout hbuffered, ← ih List.not_mem_nil, sentBytes_timeout_cons]
      exact linesOf_nil_eq_iff hbuffered reads

/-- The loop on a new connection, where nothing was read before. -/
theorem readLogs_eq_iff (reads : List NetRead) :
    readLogs reads = Lines.complete newline (sentBytes reads) ↔ NoTimeoutAfter [] reads := by
  have hlines : linesOf [] reads = Lines.complete newline ([] ++ sentBytes reads) ↔
      NoTimeoutAfter [] reads := linesOf_eq_iff List.not_mem_nil
  rw [readLogs_eq]
  exact hlines

/-- **The callback is given the complete lines of the stream** if and only if no timeout falls into
a line that is completed later. -/
theorem reassembles_iff (reads : List NetRead) : Reassembles reads ↔ NoTimeoutInLine reads :=
  readLogs_eq_iff reads

/-- **The segments do not matter**: without timeouts the lines are those of the stream. -/
theorem reassembles_of_data (segments : List (List UInt8)) :
    Reassembles (segments.map NetRead.data) := by
  apply (readLogs_eq_iff _).mpr
  intro pre post h
  have hmem : NetRead.timeout ∈ segments.map NetRead.data := by
    rw [h]
    exact List.mem_append_right _ List.mem_cons_self
  obtain ⟨bytes, -, hbytes⟩ := List.mem_map.mp hmem
  cases hbytes

end UnisetPanel
