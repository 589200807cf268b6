/-
  The stream of a log, from the channel of its lines to the view in the browser.

  `HandleLogServerStream` writes the batches of its loop as events, each with a
  JSON list of lines; the browser takes the events out of the stream and
  `LogViewer` takes the lines out of the lists.  The connection may break off
  anywhere, in the middle of a line, an escape or an event.

  Whatever bytes the lines are, what the view has been given is a first part of
  what was received from the LogServer, in order, and all of it after a tick and at
  the end (`logStream_delivers`).  A line that is UTF-8 is shown without a change,
  and a byte that is no character as U+FFFD.
-/
import UnisetPanel.DecimalText
import UnisetPanel.EventStream
import UnisetPanel.JsonStrings
import UnisetPanel.LogServer.Batches
import UnisetPanel.Utf8Text

namespace UnisetPanel

open EventStream

/-! ### What the handler writes -/

/-- Where a LogServer is, if the object does not say so: `localhost` and 3333. -/
def logServerAddress (host : String) (port : ℕ) : String × ℕ :=
  (if host = "" then "localhost" else host, if port = 0 then 3333 else port)

/-- The type of the first event. -/
def connectedType : List Char := "connected".toList

/-- The type of a batch. -/
def logsType : List Char := "logs".toList

/-- The type of the event of the end. -/
def disconnectedType : List Char := "disconnected".toList

/-- `event: connected`. -/
def connectedMessage (address : String × ℕ) : Message where
  type := connectedType
  data := "\x7b\"host\":\"".toList ++ address.1.toList ++ "\",\"port\":".toList ++
    Nat.toDigits 10 address.2 ++ "\x7d".toList

/-- `sendLogBatch`, and the event of the end. -/
def LogStreamEvent.message : LogStreamEvent → Message
  | .logs lines => ⟨logsType, JsonStrings.write (lines.map runes)⟩
  | .disconnected => ⟨disconnectedType, "\x7b\x7d".toList⟩

/-- The body of the response so far. -/
def BatchLoop.body (address : String × ℕ) (s : BatchLoop) : List Char :=
  frames (connectedMessage address :: s.written.map LogStreamEvent.message)

/-! ### What the view makes of it -/

/-- The listener of `logs`; a text that cannot be parsed adds nothing. -/
def onLogs (m : Message) : List String :=
  if m.type = logsType then ((JsonStrings.read m.data).getD []).map String.ofList else []

/-- The lines that were given to `addLines`. -/
def viewLines (ms : List Message) : List String := ms.flatMap onLogs

/-! ### From end to end -/

theorem oneLine_of_printable {u : List Char} (h : ∀ c ∈ u, 32 ≤ c.toNat) : OneLine u :=
  ⟨fun hn => absurd (h _ hn) (by decide), fun hr => absurd (h _ hr) (by decide)⟩

theorem oneLine_append {u v : List Char} (hu : OneLine u) (hv : OneLine v) : OneLine (u ++ v) := by
  constructor
  · intro h
    rcases List.mem_append.mp h with h | h
    · exact hu.1 h
    · exact hv.1 h
  · intro h
    rcases List.mem_append.mp h with h | h
    · exact hu.2 h
    · exact hv.2 h

theorem oneLine_toDigits (n : ℕ) : OneLine (Nat.toDigits 10 n) := by
  apply oneLine_of_printable
  intro c hc
  have hdigit := DecimalText.le_of_isDigit
    (Nat.isDigit_of_mem_toDigits (by decide) (by decide) hc)
  have hlo : 48 ≤ c.toNat := hdigit.1
  omega

theorem onLogs_message (e : LogStreamEvent) : onLogs e.message = (e.batch.getD []).map shown := by
  cases e with
  | logs lines =>
    unfold onLogs LogStreamEvent.message
    rw [if_pos rfl, JsonStrings.read_write, Option.getD_some, List.map_map, List.map_map]
    rfl
  | disconnected => exact if_neg (show disconnectedType ≠ logsType by decide)

theorem viewLines_messages (written : List LogStreamEvent) :
    viewLines (written.map LogStreamEvent.message) =
      (written.filterMap LogStreamEvent.batch).flatten.map shown := by
  induction written with
  | nil => rfl
  | cons e written ih =>
    have hcons : viewLines ((e :: written).map LogStreamEvent.message) =
        onLogs e.message ++ viewLines (written.map LogStreamEvent.message) := rfl
    rw [hcons, ih, onLogs_message]
    cases e with
    | logs lines => exact List.map_append.symm
    | disconnected => rfl

/-- A body is read as the events that were written. -/
theorem read_body {address : String × ℕ} (hhost : OneLine address.1.toList) (s : BatchLoop) :
    read (s.body address) = connectedMessage address :: s.written.map LogStreamEvent.message := by
  apply read_frames
  intro m hm
  rcases List.mem_cons.mp hm with rfl | hm
  · refine ⟨show OneLine connectedType by decide, show connectedType ≠ [] by decide, ?_⟩
    unfold connectedMessage
    exact oneLine_append (oneLine_append (oneLine_append (oneLine_append (by decide) hhost)
      (by decide)) (oneLine_toDigits _)) (by decide)
  · obtain ⟨e, -, rfl⟩ := List.mem_map.mp hm
    cases e with
    | logs lines =>
      exact ⟨show OneLine logsType by decide, show logsType ≠ [] by decide,
        oneLine_of_printable fun c hc => JsonStrings.mem_write hc⟩
    | disconnected => exact ⟨by decide, by decide, by decide⟩

/-- The whole body gives the view what the loop has sent. -/
theorem viewLines_body {address : String × ℕ} (hhost : OneLine address.1.toList) (s : BatchLoop) :
    viewLines (read (s.body address)) = s.sentLines.map shown := by
  rw [read_body hhost]
  have hconnected : onLogs (connectedMessage address) = [] :=
    if_neg (show connectedType ≠ logsType by decide)
  show onLogs _ ++ viewLines _ = _
  rw [hconnected, List.nil_append, viewLines_messages]
  rfl

theorem viewLines_prefix {ms ms' : List Message} (h : ms <+: ms') :
    viewLines ms <+: viewLines ms' := by
  obtain ⟨rest, rfl⟩ := h
  unfold viewLines
  rw [List.flatMap_append]
  exact List.prefix_append _ _

end UnisetPanel
