import Mathlib.Algebra.Order.BigOperators.Group.List
import Mathlib.Algebra.Order.Ring.Nat
import Mathlib.Data.List.Basic
import Mathlib.Data.List.Infix

/-!
# Event streams

How a client reads the text of a `text/event-stream`: lines that end with a line feed, a carriage
return or both, fields `data`, and a blank line behind each event.  The other fields are for the
name, the number and the delay of an event, and are not read here.
-/

namespace EventStream

/-- What a client has read. -/
@[ext]
structure Client where
  events : List (List Char) := []
  /-- the lines of data of the event that is read -/
  buffer : List Char := []
  line : List Char := []
  afterReturn : Bool := false

/-- The value of a field `data`. -/
def dataValue (line : List Char) : Option (List Char) :=
  match line with
  | 'd' :: 'a' :: 't' :: 'a' :: ':' :: ' ' :: value => some value
  | 'd' :: 'a' :: 't' :: 'a' :: ':' :: value => some value
  | ['d', 'a', 't', 'a'] => some []
  | _ => none

/-- A line ends; a blank one ends the event, and no event has no data. -/
def endLine (s : Client) : Client :=
  if s.line = [] then
    if s.buffer = [] then s
    else { s with events := s.events ++ [s.buffer.dropLast], buffer := [] }
  else
    match dataValue s.line with
    | some value => { s with buffer := s.buffer ++ value ++ ['\n'], line := [] }
    | none => { s with line := [] }

def readChar (s : Client) (c : Char) : Client :=
  if c = '\n' then
    if s.afterReturn then { s with afterReturn := false } else endLine s
  else if c = '\r' then { endLine s with afterReturn := true }
  else { s with line := s.line ++ [c], afterReturn := false }

def read (s : Client) (text : List Char) : Client := text.foldl readChar s

/-- The data of the events of a text. -/
def parse (text : List Char) : List (List Char) := (read {} text).events

/-- An event as a server writes it. -/
def event (data : List Char) : List Char :=
  ['d', 'a', 't', 'a', ':'] ++ data ++ ['\n', '\n']

def isBreak (c : Char) : Bool := c = '\n' || c = '\r'

section

variable {s : Client} {text more data : List Char}

theorem read_append : read s (text ++ more) = read (read s text) more := List.foldl_append

/-- The client is between two events. -/
structure Between (s : Client) : Prop where
  buffer : s.buffer = []
  line : s.line = []
  afterReturn : s.afterReturn = false

/-! ## Events do not depend on the events before them -/

/-- The client with more events before those that it has read. -/
def behind (events : List (List Char)) (s : Client) : Client :=
  { s with events := events ++ s.events }

theorem readChar_behind (events : List (List Char)) (c : Char) :
    readChar (behind events s) c = behind events (readChar s c) := by
  have hend : endLine (behind events s) = behind events (endLine s) := by
    unfold endLine behind
    dsimp only
    split
    · split
      · rfl
      · rw [List.append_assoc]
    · split
      · rfl
      · rfl
  unfold readChar
  rw [hend]
  unfold behind
  dsimp only
  split
  · split
    · rfl
    · rfl
  · split
    · rfl
    · rfl

theorem read_behind (events : List (List Char)) :
    read (behind events s) text = behind events (read s text) := by
  unfold read
  induction text generalizing s with
  | nil => rfl
  | cons c text ih => rw [List.foldl_cons, readChar_behind, ih, List.foldl_cons]

theorem Between.eq_behind (h : Between s) : s = behind s.events {} := by
  obtain ⟨hbuffer, hline, hreturn⟩ := h
  unfold behind
  rw [List.append_nil]
  cases s
  simp_all

theorem line_endLine (s : Client) : (endLine s).line = [] := by
  unfold endLine
  split
  · split
    · assumption
    · assumption
  · split
    · rfl
    · rfl

theorem afterReturn_endLine (s : Client) : (endLine s).afterReturn = s.afterReturn := by
  unfold endLine
  split
  · split
    · rfl
    · rfl
  · split
    · rfl
    · rfl

theorem buffer_endLine (h : s.line = []) : (endLine s).buffer = [] := by
  unfold endLine
  rw [if_pos h]
  split
  · assumption
  · rfl

/-- Behind a return the line has ended. -/
def Ended (s : Client) : Prop := s.afterReturn = true → s.line = []

theorem ended_readChar (s : Client) (c : Char) : Ended (readChar s c) := by
  unfold readChar
  split
  · split
    · rename_i hreturn
      intro hfalse
      cases hfalse
    · intro _
      exact line_endLine s
  · split
    · intro _
      exact line_endLine s
    · intro hfalse
      cases hfalse

theorem ended_read (h : Ended s) : Ended (read s text) := by
  unfold read
  induction text generalizing s with
  | nil => exact h
  | cons c text ih => exact ih (ended_readChar s c)

/-- Two line feeds end an event. -/
theorem between_lineFeeds (h : Ended s) : Between (read s ['\n', '\n']) := by
  -- the first line feed ends the line, or is part of a return in front of it
  have hfirst : (readChar s '\n').line = [] ∧ (readChar s '\n').afterReturn = false := by
    unfold readChar
    rw [if_pos rfl]
    cases hreturn : s.afterReturn with
    | true => exact ⟨h hreturn, rfl⟩
    | false => exact ⟨line_endLine s, (afterReturn_endLine s).trans hreturn⟩
  have hread : read s ['\n', '\n'] = endLine (readChar s '\n') := by
    show readChar (readChar s '\n') '\n' = _
    conv_lhs => rw [readChar]
    rw [if_pos rfl, hfirst.2]
    rfl
  rw [hread]
  exact ⟨buffer_endLine hfirst.1, line_endLine _, (afterReturn_endLine _).trans hfirst.2⟩

theorem between_event (data : List Char) : Between (read {} (event data)) := by
  unfold event
  rw [read_append]
  exact between_lineFeeds (ended_read nofun)

theorem parse_event_append (data more : List Char) :
    parse (event data ++ more) = parse (event data) ++ parse more := by
  -- an event leaves the client as it started, but for the events behind it
  unfold parse
  rw [read_append]
  conv_lhs => rw [(between_event data).eq_behind, read_behind]
  rfl

theorem parse_events (datas : List (List Char)) :
    parse (datas.flatMap event) = datas.flatMap fun data ↦ parse (event data) := by
  induction datas with
  | nil => rfl
  | cons data datas ih => rw [List.flatMap_cons, parse_event_append, ih, List.flatMap_cons]

/-! ## An event without line ends -/

/-- The field of an event. -/
def field (data : List Char) : List Char := ['d', 'a', 't', 'a', ':'] ++ data

theorem field_ne_nil : field data ≠ [] := List.cons_ne_nil _ _

theorem length_field : (field data).length = data.length + 5 := by
  unfold field
  rw [List.length_append, Nat.add_comm]
  rfl

theorem isBreak_eq_false {c : Char} : isBreak c = false ↔ c ≠ '\n' ∧ c ≠ '\r' := by
  simp [isBreak]

theorem read_line (h : ∀ c ∈ text, isBreak c = false) :
    (read s text).line = s.line ++ text ∧ (read s text).events = s.events ∧
      (read s text).buffer = s.buffer ∧
      (s.afterReturn = false → (read s text).afterReturn = false) := by
  unfold read
  induction text generalizing s with
  | nil => simp
  | cons c text ih =>
    obtain ⟨hfeed, hreturn⟩ := isBreak_eq_false.mp (h c List.mem_cons_self)
    have hchar : readChar s c = { s with line := s.line ++ [c], afterReturn := false } := by
      unfold readChar
      rw [if_neg hfeed, if_neg hreturn]
    obtain ⟨hline, hevents, hbuffer, hafter⟩ :=
      ih (s := readChar s c) fun c' hc' ↦ h c' (List.mem_cons_of_mem c hc')
    rw [List.foldl_cons, hline, hevents, hbuffer]
    rw [hchar] at hafter ⊢
    refine ⟨?_, rfl, rfl, fun _ ↦ hafter rfl⟩
    rw [List.append_assoc]
    rfl

theorem field_noBreak (h : ∀ c ∈ data, isBreak c = false) : ∀ c ∈ field data, isBreak c = false := by
  have hdata : ['d', 'a', 't', 'a', ':'].all (fun c ↦ !isBreak c) = true := by decide
  intro c hc
  rcases List.mem_append.mp hc with hc | hc
  · exact Bool.not_eq_true' _ |>.mp (List.all_eq_true.mp hdata c hc)
  · exact h c hc

theorem dataValue_field (hspace : data.head? ≠ some ' ') : dataValue (field data) = some data := by
  cases data with
  | nil => rfl
  | cons c data =>
    have hc : c ≠ ' ' := fun h ↦ hspace (congrArg some h)
    show dataValue ('d' :: 'a' :: 't' :: 'a' :: ':' :: c :: data) = some (c :: data)
    unfold dataValue
    split
    · rename_i heq
      simp_all
    · simp_all
    · simp_all
    · simp_all

theorem read_field (h : ∀ c ∈ data, isBreak c = false) :
    read {} (field data) = { line := field data } := by
  obtain ⟨hline, hevents, hbuffer, hafter⟩ := read_line (s := {}) (field_noBreak h)
  rw [Client.ext_iff, hline, hevents, hbuffer, hafter rfl]
  exact ⟨rfl, rfl, rfl, rfl⟩

theorem endLine_field {value : List Char} (h : dataValue (field data) = some value) :
    endLine { line := field data } = { buffer := value ++ ['\n'] } := by
  unfold endLine
  dsimp only
  rw [if_neg field_ne_nil, h]
  rfl

theorem parse_event (hbreak : ∀ c ∈ data, isBreak c = false) (hspace : data.head? ≠ some ' ') :
    parse (event data) = [data] := by
  have hblank : readChar { buffer := data ++ ['\n'] } '\n' = { events := [data] } := by
    unfold readChar endLine
    simp
  show (read {} (field data ++ ['\n', '\n'])).events = [data]
  rw [read_append, read_field hbreak]
  show (readChar (endLine { line := field data }) '\n').events = [data]
  rw [endLine_field (dataValue_field hspace), hblank]

/-! ## An event with line ends -/

/-- The letters that a client has in hand. -/
def Client.held (s : Client) : Nat :=
  (s.events.map List.length).sum + s.buffer.length + s.line.length

/-- Of `n` letters of an event at least those of the name of its field are gone, and one more for
the line end of a buffer that has been sent. -/
def Counted (n : Nat) (s : Client) : Prop :=
  s.held + 4 ≤ n ∧ (s.buffer = [] → s.held + 5 ≤ n)

theorem length_dataValue {line value : List Char} (h : dataValue line = some value) :
    value.length + 4 ≤ line.length ∧ (value ≠ [] → value.length + 5 ≤ line.length) := by
  unfold dataValue at h
  split at h
  · cases h
    simp
  · cases h
    simp
  · cases h
    simp
  · cases h

theorem counted_endLine {n : Nat} (h : Counted n s) : Counted n (endLine s) := by
  obtain ⟨hheld, hempty⟩ := h
  unfold Counted Client.held at *
  unfold endLine
  split
  · rename_i hline
    split
    · exact ⟨hheld, hempty⟩
    · rename_i hbuffer
      -- the event that is sent has one letter less than the buffer, which was not empty
      have hpos := List.length_pos_iff.mpr hbuffer
      simp only [List.map_append, List.sum_append, List.map_cons, List.map_nil, List.sum_cons,
        List.sum_nil, List.length_dropLast, List.length_nil]
      omega
  · split
    · rename_i value hvalue
      have hlength := (length_dataValue hvalue).1
      simp only [List.length_append, List.length_cons, List.length_nil]
      refine ⟨by omega, fun hnil ↦ ?_⟩
      simp at hnil
    · simp only [List.length_nil]
      exact ⟨by omega, fun hnil ↦ by have := hempty hnil; omega⟩

theorem counted_readChar {n : Nat} (h : Counted n s) (c : Char) :
    Counted (n + if isBreak c then 0 else 1) (readChar s c) := by
  have hend := counted_endLine h
  unfold readChar
  by_cases hfeed : c = '\n'
  · rw [if_pos hfeed, if_pos (by simp [isBreak, hfeed])]
    split
    · exact h
    · exact hend
  · rw [if_neg hfeed]
    by_cases hreturn : c = '\r'
    · rw [if_pos hreturn, if_pos (by simp [isBreak, hreturn])]
      exact hend
    · rw [if_neg hreturn, if_neg (by simp [isBreak, hfeed, hreturn])]
      obtain ⟨hheld, hempty⟩ := h
      unfold Counted Client.held at *
      simp only [List.length_append, List.length_cons, List.length_nil]
      exact ⟨by omega, fun hnil ↦ by have := hempty hnil; omega⟩

theorem counted_read {n : Nat} (h : Counted n s) :
    Counted (n + text.countP fun c ↦ !isBreak c) (read s text) := by
  unfold read
  induction text generalizing s n with
  | nil => exact h
  | cons c text ih =>
    have hnext := ih (counted_readChar h c)
    rw [List.foldl_cons, List.countP_cons]
    cases hc : isBreak c with
    | true => simpa [hc] using hnext
    | false =>
      rw [hc] at hnext
      simp only [Bool.not_false, if_true]
      rw [← Nat.add_assoc, Nat.add_right_comm]
      exact hnext

theorem counted_field {value : List Char} (h : dataValue (field data) = some value)
    (afterReturn : Bool) :
    Counted (field data).length { buffer := value ++ ['\n'], afterReturn := afterReturn } := by
  have hlength := length_dataValue h
  have hfield : (field data).length = data.length + 5 := length_field
  unfold Counted Client.held
  simp only [List.map_nil, List.sum_nil, List.length_append, List.length_cons, List.length_nil]
  by_cases hvalue : value = []
  · rw [hvalue, List.length_nil]
    exact ⟨by omega, fun hnil ↦ by simp at hnil⟩
  · have hfive := hlength.2 hvalue
    exact ⟨by omega, fun hnil ↦ by simp at hnil⟩

theorem exists_dataValue (data : List Char) : ∃ value, dataValue (field data) = some value := by
  by_cases hspace : data.head? = some ' '
  · obtain ⟨rest, rfl⟩ := List.head?_eq_some_iff.mp hspace
    exact ⟨rest, rfl⟩
  · exact ⟨data, dataValue_field hspace⟩

/-- The letters of an event up to its first line end, which is behind the data if not in it. -/
theorem exists_firstBreak (data : List Char) : ∃ first c rest,
    data ++ ['\n', '\n'] = first ++ c :: rest ∧ (∀ c ∈ first, isBreak c = false) ∧
      isBreak c = true := by
  induction data with
  | nil => exact ⟨[], '\n', ['\n'], rfl, nofun, rfl⟩
  | cons c data ih =>
    cases hc : isBreak c with
    | true => exact ⟨[], c, data ++ ['\n', '\n'], rfl, nofun, hc⟩
    | false =>
      obtain ⟨first, c', rest, heq, hfirst, hbreak⟩ := ih
      refine ⟨c :: first, c', rest, congrArg (c :: ·) heq, ?_, hbreak⟩
      intro d hd
      rcases List.mem_cons.mp hd with rfl | hd
      · exact hc
      · exact hfirst d hd

/-- What is read of an event is not longer than its data without the line ends. -/
theorem length_parse_event (data : List Char) :
    ((parse (event data)).map List.length).sum ≤ data.countP fun c ↦ !isBreak c := by
  -- the field ends at the first line end; of what follows, no line end is counted
  obtain ⟨first, c, rest, heq, hfirst, hbreak⟩ := exists_firstBreak data
  obtain ⟨value, hvalue⟩ := exists_dataValue first
  have hevent : event data = field first ++ c :: rest := by
    unfold event field
    rw [List.append_assoc, heq, List.append_assoc]
  have hbetween := between_event data
  have hchar : ∃ afterReturn, readChar { line := field first } c =
      { buffer := value ++ ['\n'], afterReturn := afterReturn } := by
    unfold readChar
    rw [endLine_field hvalue]
    by_cases hfeed : c = '\n'
    · rw [if_pos hfeed]
      exact ⟨false, rfl⟩
    · have hreturn : c = '\r' := by simpa [isBreak, hfeed] using hbreak
      rw [if_neg hfeed, if_pos hreturn]
      exact ⟨true, rfl⟩
  obtain ⟨afterReturn, hchar⟩ := hchar
  have hread : read {} (event data) =
      read { buffer := value ++ ['\n'], afterReturn := afterReturn } rest := by
    rw [hevent, read_append, read_field hfirst, ← hchar]
    rfl
  have hcounted :
      Counted ((field first).length + rest.countP fun c ↦ !isBreak c)
        (read { buffer := value ++ ['\n'], afterReturn := afterReturn } rest) :=
    counted_read (counted_field hvalue afterReturn)
  have hcount : data.countP (fun c ↦ !isBreak c) =
      first.length + rest.countP fun c ↦ !isBreak c := by
    have hboth := congrArg (List.countP fun c ↦ !isBreak c) heq
    have hall : first.countP (fun c ↦ !isBreak c) = first.length :=
      List.countP_eq_length.mpr fun c hc ↦ by rw [hfirst c hc]; rfl
    have hrest : (c :: rest).countP (fun c ↦ !isBreak c) = rest.countP fun c ↦ !isBreak c :=
      List.countP_cons_of_neg (by simp [hbreak])
    have hfeeds : ['\n', '\n'].countP (fun c ↦ !isBreak c) = 0 := rfl
    rwa [List.countP_append, List.countP_append, hall, hrest, hfeeds, Nat.add_zero] at hboth
  rw [← hread] at hcounted
  have hheld := hcounted.2 hbetween.buffer
  unfold Client.held at hheld
  unfold parse
  rw [length_field] at hheld
  omega

theorem sum_parse_events (datas : List (List Char)) :
    (((datas.flatMap fun data ↦ parse (event data))).map List.length).sum ≤
      (datas.map fun data ↦ data.countP fun c ↦ !isBreak c).sum := by
  induction datas with
  | nil => exact Nat.le_refl 0
  | cons data datas ih =>
    rw [List.flatMap_cons, List.map_append, List.sum_append, List.map_cons, List.sum_cons]
    exact Nat.add_le_add (length_parse_event data) ih

theorem noBreak_of_sum {datas : List (List Char)}
    (h : (datas.map List.length).sum ≤
      (datas.map fun data ↦ data.countP fun c ↦ !isBreak c).sum) :
    ∀ data ∈ datas, ∀ c ∈ data, isBreak c = false := by
  induction datas with
  | nil => exact nofun
  | cons data datas ih =>
    rw [List.map_cons, List.map_cons, List.sum_cons, List.sum_cons] at h
    have hle : data.countP (fun c ↦ !isBreak c) ≤ data.length := List.countP_le_length
    -- no event gains letters, so none may lose one
    have hsum : (datas.map fun data ↦ data.countP fun c ↦ !isBreak c).sum ≤
        (datas.map List.length).sum :=
      List.sum_le_sum fun _ _ ↦ List.countP_le_length
    intro data' hdata' c hc
    rcases List.mem_cons.mp hdata' with rfl | hdata'
    · have hlength : data'.countP (fun c ↦ !isBreak c) = data'.length := by omega
      exact Bool.not_eq_true' _ |>.mp (List.countP_eq_length.mp hlength c hc)
    · exact ih (by omega) data' hdata' c hc

/-- A client reads back the data of all events just when no data has a line end in it. -/
theorem parse_events_iff {datas : List (List Char)}
    (hspace : ∀ data ∈ datas, data.head? ≠ some ' ') :
    parse (datas.flatMap event) = datas ↔
      ∀ data ∈ datas, ∀ c ∈ data, isBreak c = false := by
  rw [parse_events]
  constructor
  · intro h
    apply noBreak_of_sum
    have hsum := sum_parse_events datas
    rwa [h] at hsum
  · intro h
    have hsingle : ∀ data ∈ datas, parse (event data) = [data] :=
      fun data hdata ↦ parse_event (h data hdata) (hspace data hdata)
    rw [List.flatMap_congr hsingle, List.flatMap_singleton']

end

end EventStream
