/-
  `EventStream` — `text/event-stream`: events written as `event: …` and
  `data: …`, and the reading of a browser's `EventSource`.

  A browser reads the stream as it comes, a letter at a time.  A line ends with
  a line feed, a carriage return or both; a line is a field or a comment, and an
  empty one dispatches the event that the fields before it have made.

  Types and data without the end of a line come through as they are
  (`read_frames`), and a stream that breaks off in whatever place has delivered
  a first part of the events and nothing else (`read_isPrefix`).
-/
import Mathlib.Data.List.Infix

namespace UnisetPanel.EventStream

/-- An event as a listener gets it. -/
structure Message where
  type : List Char
  data : List Char
  deriving DecidableEq

/-! ### Writing -/

/-- The name of the field of the type. -/
def eventField : List Char := ['e', 'v', 'e', 'n', 't']

/-- The name of the field of the data. -/
def dataField : List Char := ['d', 'a', 't', 'a']

/-- `"event: %s\ndata: %s\n\n"`. -/
def frame (m : Message) : List Char :=
  eventField ++ ':' :: ' ' :: m.type ++ ['\n'] ++
    (dataField ++ ':' :: ' ' :: m.data ++ ['\n'] ++ ['\n'])

/-- Events one after the other. -/
def frames (ms : List Message) : List Char := ms.flatMap frame

/-! ### Reading -/

/-- The events dispatched, the buffers of the type and the data of the next one, the line so far,
and whether a carriage return was read last. -/
structure Reader where
  events : List Message
  type : List Char
  data : List Char
  line : List Char
  cr : Bool
  deriving DecidableEq

namespace Reader

/-- A stream begins. -/
def new : Reader := ⟨[], [], [], [], false⟩

variable (s : Reader)

/-- An empty line: an event with data is dispatched, and its data end without the last line feed;
the buffers are empty again. -/
def dispatch : Reader :=
  if s.data = [] then { s with type := [], data := [] }
  else
    { s with
      events := s.events ++
        [⟨if s.type = [] then ['m', 'e', 's', 's', 'a', 'g', 'e'] else s.type, s.data.dropLast⟩]
      type := []
      data := [] }

/-- A field of the event. -/
def field (name value : List Char) : Reader :=
  if name = eventField then { s with type := value }
  else if name = dataField then { s with data := s.data ++ value ++ ['\n'] }
  else s

/-- The value of a field, after the colon; one space is dropped. -/
def value : List Char → List Char
  | [] => []
  | c :: rest => if c = ' ' then rest else c :: rest

/-- A whole line. -/
def processLine (line : List Char) : Reader :=
  if line = [] then s.dispatch
  else if line.head? = some ':' then s
  else s.field (line.takeWhile (· ≠ ':')) (value ((line.dropWhile (· ≠ ':')).drop 1))

/-- The end of the current line. -/
def endLine : Reader := { s.processLine s.line with line := [] }

/-- One letter. -/
def next (s : Reader) (c : Char) : Reader :=
  if c = '\n' then (if s.cr then { s with cr := false } else s.endLine)
  else if c = '\r' then { s.endLine with cr := true }
  else { s with line := s.line ++ [c], cr := false }

/-- Letters. -/
def nextAll (s : Reader) (text : List Char) : Reader := text.foldl next s

theorem nextAll_append (s : Reader) (u v : List Char) :
    s.nextAll (u ++ v) = (s.nextAll u).nextAll v := List.foldl_append

@[simp] theorem nextAll_cons (s : Reader) (c : Char) (u : List Char) :
    s.nextAll (c :: u) = (s.next c).nextAll u := rfl

@[simp] theorem nextAll_nil (s : Reader) : s.nextAll [] = s := rfl

end Reader

/-- The events that a stream has delivered. -/
def read (text : List Char) : List Message := (Reader.new.nextAll text).events

/-! ### What is dispatched stays so -/

namespace Reader

theorem events_dispatch (s : Reader) : s.events <+: s.dispatch.events := by
  unfold dispatch
  by_cases h : s.data = []
  · rw [if_pos h]
  · rw [if_neg h]
    exact List.prefix_append _ _

theorem events_field (s : Reader) (name value : List Char) :
    (s.field name value).events = s.events := by
  unfold field
  split_ifs <;> rfl

theorem events_endLine (s : Reader) : s.events <+: s.endLine.events := by
  show s.events <+: (s.processLine s.line).events
  unfold processLine
  split_ifs
  · exact s.events_dispatch
  · exact List.prefix_refl _
  · rw [events_field]

theorem events_next (s : Reader) (c : Char) : s.events <+: (s.next c).events := by
  unfold next
  split_ifs
  · exact List.prefix_refl _
  · exact s.events_endLine
  · exact s.events_endLine
  · exact List.prefix_refl _

theorem events_nextAll (s : Reader) (text : List Char) : s.events <+: (s.nextAll text).events := by
  induction text generalizing s with
  | nil => exact List.prefix_refl _
  | cons c text ih => exact (s.events_next c).trans (ih (s.next c))

end Reader

/-- **A stream that breaks off** has delivered a first part of its events. -/
theorem read_isPrefix (u v : List Char) : read u <+: read (u ++ v) := by
  unfold read
  rw [Reader.nextAll_append]
  exact Reader.events_nextAll _ v

/-! ### What is written is read -/

/-- A text without the end of a line. -/
def OneLine (u : List Char) : Prop := '\n' ∉ u ∧ '\r' ∉ u

instance (u : List Char) : Decidable (OneLine u) := inferInstanceAs (Decidable (_ ∧ _))

namespace Reader

variable {events : List Message} {type data line : List Char}

/-- Letters of a line. -/
theorem nextAll_line {u : List Char} (hu : OneLine u) :
    (⟨events, type, data, line, false⟩ : Reader).nextAll u =
      ⟨events, type, data, line ++ u, false⟩ := by
  induction u generalizing line with
  | nil => simp
  | cons c u ih =>
    have hn : c ≠ '\n' := fun h => hu.1 (h ▸ List.mem_cons_self)
    have hr : c ≠ '\r' := fun h => hu.2 (h ▸ List.mem_cons_self)
    rw [nextAll_cons]
    simp only [next, hn, hr, if_false]
    rw [ih ⟨fun h => hu.1 (List.mem_cons_of_mem c h), fun h => hu.2 (List.mem_cons_of_mem c h)⟩,
      List.append_assoc, List.singleton_append]

/-- A line and its end. -/
theorem nextAll_lineFeed {u : List Char} (hu : OneLine u) :
    (⟨events, type, data, [], false⟩ : Reader).nextAll (u ++ ['\n']) =
      (⟨events, type, data, u, false⟩ : Reader).endLine := by
  rw [nextAll_append, nextAll_line hu]
  rfl

/-- The line `name: value`. -/
theorem processLine_field (s : Reader) {name : List Char} (hne : name ≠ []) (hname : ':' ∉ name)
    (v : List Char) : s.processLine (name ++ ':' :: ' ' :: v) = s.field name v := by
  obtain ⟨c, rest, rfl⟩ := List.exists_cons_of_ne_nil hne
  have hhead : c ≠ ':' := fun h => hname (h ▸ List.mem_cons_self)
  have hall : ∀ d ∈ c :: rest, decide (d ≠ ':') = true := fun d hd =>
    decide_eq_true fun h => hname (h ▸ hd)
  unfold processLine
  rw [if_neg (by simp), if_neg (by simpa using hhead), List.takeWhile_append_of_pos hall,
    List.dropWhile_append_of_pos hall]
  simp [value]

/-- **One frame is one event.** -/
theorem nextAll_frame {m : Message} (htype : OneLine m.type) (hne : m.type ≠ [])
    (hdata : OneLine m.data) :
    (⟨events, [], [], [], false⟩ : Reader).nextAll (frame m) =
      ⟨events ++ [m], [], [], [], false⟩ := by
  -- three lines: the type, the data, and an empty one that dispatches
  have hline : ∀ (name u : List Char), name = eventField ∨ name = dataField →
      OneLine u → OneLine (name ++ ':' :: ' ' :: u) := by
    rintro name u hn ⟨h1, h2⟩
    rcases hn with rfl | rfl <;> exact ⟨by simp [eventField, dataField, h1],
      by simp [eventField, dataField, h2]⟩
  unfold frame
  rw [nextAll_append, nextAll_lineFeed (hline _ _ (.inl rfl) htype), endLine,
    processLine_field _ (by decide) (by decide)]
  show (⟨events, m.type, [], [], false⟩ : Reader).nextAll _ = _
  rw [nextAll_append, nextAll_lineFeed (hline _ _ (.inr rfl) hdata), endLine,
    processLine_field _ (by decide) (by decide)]
  show (⟨events, m.type, [] ++ m.data ++ ['\n'], [], false⟩ : Reader).nextAll ['\n'] = _
  simp [next, endLine, processLine, dispatch, hne]

end Reader

/-- **Events come through as they were written.** -/
theorem read_frames {ms : List Message}
    (h : ∀ m ∈ ms, OneLine m.type ∧ m.type ≠ [] ∧ OneLine m.data) : read (frames ms) = ms := by
  have hall : ∀ events : List Message, (⟨events, [], [], [], false⟩ : Reader).nextAll (frames ms) =
      ⟨events ++ ms, [], [], [], false⟩ := by
    induction ms with
    | nil => intro events; simp [frames]
    | cons m ms ih =>
      intro events
      obtain ⟨htype, hne, hdata⟩ := h m List.mem_cons_self
      rw [frames, List.flatMap_cons, Reader.nextAll_append, Reader.nextAll_frame htype hne hdata]
      have hrest := ih (fun m' hm' => h m' (List.mem_cons_of_mem m hm')) (events ++ [m])
      rw [frames] at hrest
      rw [hrest, List.append_assoc, List.singleton_append]
  unfold read Reader.new
  rw [hall [], List.nil_append]

end UnisetPanel.EventStream
