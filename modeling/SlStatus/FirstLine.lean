import Mathlib.Data.List.TakeWhile
import SlStatus.CString

/-! `cat` and `run_command` of `components/cat.c` and `components/run_command.c`: the first line of a stream, read
into `buf`, which still holds what was there before. -/

namespace SlStatus.FirstLine
open CString

def newline : Byte := 0x0A

/-- Up to a newline, which is read as well. -/
def throughNewline : List Byte → List Byte
  | [] => []
  | byte :: rest => if byte = newline then [byte] else byte :: throughNewline rest

/-- What there is to be read: these bytes, and behind them an error or the end. An error leaves anything in the array
that is being read into. -/
structure Stream where
  bytes : List Byte
  error : Option (Buffer 1024)
  deriving DecidableEq

/-- The line, or as much of it as has room. -/
def taken (stream : Stream) : List Byte := (throughNewline stream.bytes).take 1022

def filled (buf : Buffer 1024) (stream : Stream) : Buffer 1024 :=
  buf.store (taken stream ++ [0]) (by
    rw [taken, List.length_append, List.length_take, List.length_singleton]
    omega)

/-- `fgets(buf, sizeof(buf) - 1, fp)`: whether it returns a pointer, and the array. -/
def fgets (buf : Buffer 1024) (stream : Stream) : Bool × Buffer 1024 :=
  if newline ∈ taken stream ∨ (taken stream).length = 1022 then (true, filled buf stream)
  else
    match stream.error with
    | some left => (false, left)
    | none => if stream.bytes = [] then (false, buf) else (true, filled buf stream)

/-- The index of the last one. -/
def strrchr (c : Byte) : List Byte → Option Nat
  | [] => none
  | byte :: rest =>
      match strrchr c rest with
      | some i => some (i + 1)
      | none => if byte = c then some 0 else none

/-- What both functions do with a stream, if it could be opened. What is returned points to `buf`; no result where a
string is read that has no end. -/
def readLine (buf : Buffer 1024) (stream : Option Stream) (closed : Bool) :
    Option (Option (List Byte) × Buffer 1024) :=
  match stream with
  | none => some (none, buf)
  | some stream =>
      let (f, buf) := fgets buf stream
      if closed = false then some (none, buf)
      else if f = false then some (none, buf)
      else do
        let string ← buf.string?
        let buf := match strrchr newline string with
          | some i => buf.set i 0
          | none => buf
        let string ← buf.string?
        pure (if string = [] then none else some string, buf)

/-- The stream is a file. -/
def cat (buf : Buffer 1024) (file : Option Stream) (fclose : Bool) : Option (Option (List Byte) × Buffer 1024) :=
  readLine buf file fclose

/-- The stream is what a command writes. -/
def runCommand (buf : Buffer 1024) (output : Option Stream) (pclose : Bool) :
    Option (Option (List Byte) × Buffer 1024) :=
  readLine buf output pclose

/-- What there is before a newline or a zero, within 1022 bytes. -/
def line (content : List Byte) : List Byte := (content.take 1022).takeWhile fun byte => byte ≠ 0 ∧ byte ≠ newline

/-- The error comes before the end of the line, and before there is no more room. -/
def Stream.Breaks (stream : Stream) : Prop :=
  stream.error.isSome ∧ stream.bytes.length < 1022 ∧ newline ∉ stream.bytes

instance (stream : Stream) : Decidable stream.Breaks := inferInstanceAs (Decidable (_ ∧ _ ∧ _))

/-- Nothing is read of a stream that is not there, or breaks, or is not closed, or begins with an empty line. -/
def firstLine (stream : Option Stream) (closed : Bool) : Option (List Byte) :=
  if closed = false then none
  else stream.bind fun stream =>
    if stream.Breaks ∨ line stream.bytes = [] then none else some (line stream.bytes)

/-- What is read is the line, and at most a newline behind it. -/
theorem exists_tail (stream : List Byte) (n : Nat) :
    ∃ tail, ((throughNewline stream).take n).takeWhile (fun byte => byte ≠ 0) =
        (stream.take n).takeWhile (fun byte => byte ≠ 0 ∧ byte ≠ newline) ++ tail ∧
      (tail = [] ∨ tail = [newline]) := by
  induction stream generalizing n with
  | nil => exact ⟨[], by simp [throughNewline], .inl rfl⟩
  | cons byte stream ih =>
    cases n with
    | zero => exact ⟨[], by simp, .inl rfl⟩
    | succ n =>
      by_cases ends : byte = newline
      · subst byte
        exact ⟨[newline], by simp [throughNewline, newline], .inr rfl⟩
      · by_cases zero : byte = 0
        · subst byte
          exact ⟨[], by simp [throughNewline, newline], .inl rfl⟩
        · obtain ⟨tail, split, short⟩ := ih n
          refine ⟨tail, ?_, short⟩
          have front : throughNewline (byte :: stream) = byte :: throughNewline stream := if_neg ends
          rw [front, List.take_succ_cons, List.take_succ_cons, List.takeWhile_cons_of_pos (by simpa using zero), split,
            List.takeWhile_cons_of_pos (by simpa using ⟨zero, ends⟩), List.cons_append]

theorem strrchr_none {c : Byte} {string : List Byte} (absent : c ∉ string) : strrchr c string = none := by
  induction string with
  | nil => rfl
  | cons byte string ih =>
    rw [List.mem_cons, not_or] at absent
    rw [strrchr, ih absent.2]
    exact if_neg (Ne.symm absent.1)

theorem strrchr_last {c : Byte} (string : List Byte) : strrchr c (string ++ [c]) = some string.length := by
  induction string with
  | nil => simp [strrchr]
  | cons byte string ih => rw [List.cons_append, strrchr, ih, List.length_cons]

theorem newline_notMem_line (content : List Byte) : newline ∉ line content := by
  intro member
  have passed := List.mem_takeWhile_imp member
  simp at passed

theorem zero_notMem_line (content : List Byte) : 0 ∉ line content := by
  intro member
  have passed := List.mem_takeWhile_imp member
  simp at passed

theorem mem_throughNewline (content : List Byte) : newline ∈ throughNewline content ↔ newline ∈ content := by
  induction content with
  | nil => rfl
  | cons byte content ih =>
    unfold throughNewline
    split_ifs with ends
    · simp [ends]
    · rw [List.mem_cons, List.mem_cons, ih]

theorem throughNewline_of_notMem {content : List Byte} (absent : newline ∉ content) :
    throughNewline content = content := by
  induction content with
  | nil => rfl
  | cons byte content ih =>
    rw [List.mem_cons, not_or] at absent
    rw [throughNewline, if_neg (Ne.symm absent.1), ih absent.2]

/-- A stream breaks where an error comes and neither of the other reasons to stop. -/
theorem breaks_iff (stream : Stream) :
    stream.Breaks ↔ stream.error.isSome ∧ ¬(newline ∈ taken stream ∨ (taken stream).length = 1022) := by
  unfold Stream.Breaks
  apply and_congr_right
  intro _
  by_cases present : newline ∈ stream.bytes
  · have inside := (mem_throughNewline stream.bytes).mpr present
    have stops : newline ∈ taken stream ∨ (taken stream).length = 1022 := by
      rcases le_or_gt (throughNewline stream.bytes).length 1022 with room | long
      · rw [taken, List.take_of_length_le room]
        exact .inl inside
      · rw [taken, List.length_take]
        omega
    exact iff_of_false (fun both => both.2 present) (not_not.mpr stops)
  · rw [taken, throughNewline_of_notMem present, List.length_take]
    have outside : newline ∉ stream.bytes.take 1022 := fun member => present (List.mem_of_mem_take member)
    simp only [present, outside, not_false_eq_true, and_true, false_or]
    omega

/-- The buffer after a line has been read. -/
theorem filled_eq (buf : Buffer 1024) (stream : Stream) :
    ∃ tail, (filled buf stream).string? = some (line stream.bytes ++ tail) ∧ (tail = [] ∨ tail = [newline]) := by
  obtain ⟨tail, split, short⟩ := exists_tail stream.bytes 1022
  refine ⟨tail, ?_, short⟩
  simp only [filled, taken, Buffer.string?, Buffer.store, List.append_assoc, List.singleton_append,
    stringOf_terminated]
  rw [split]
  rfl

/-- Putting the terminator on the newline leaves the line. -/
theorem cut_eq {buf : Buffer 1024} {content : List Byte} (read : buf.string? = some (line content ++ [newline])) :
    (buf.set (line content).length 0).string? = some (line content) := by
  obtain ⟨-, rest, bytes⟩ := stringOf_eq_some read
  have whole : buf.bytes = line content ++ newline :: 0 :: rest := by
    rw [bytes, List.append_assoc]
    rfl
  simp only [Buffer.string?, Buffer.set, whole, List.set_append_right, Nat.le_refl, Nat.sub_self, List.set_cons_zero]
  exact stringOf_append _ _ (zero_notMem_line content)

/-- It returns `NULL` for a stream that breaks, and for one that is at its end. -/
theorem fgets_eq (buf : Buffer 1024) (stream : Stream) :
    ∃ after, fgets buf stream = (decide (¬(stream.Breaks ∨ stream.bytes = [])), after) ∧
      (¬(stream.Breaks ∨ stream.bytes = []) → after = filled buf stream) := by
  have breaks := breaks_iff stream
  unfold fgets
  by_cases stops : newline ∈ taken stream ∨ (taken stream).length = 1022
  · have intact : ¬stream.Breaks := fun broken => (breaks.mp broken).2 stops
    have some : stream.bytes ≠ [] := by
      intro none
      simp [taken, none, throughNewline] at stops
    rw [if_pos stops, decide_eq_true (not_or.mpr ⟨intact, some⟩)]
    exact ⟨_, rfl, fun _ => rfl⟩
  · rw [if_neg stops]
    cases error : stream.error with
    | some left =>
      have broken : stream.Breaks := breaks.mpr ⟨by rw [error]; rfl, stops⟩
      rw [decide_eq_false (not_not.mpr (.inl broken))]
      exact ⟨left, rfl, fun intact => absurd (.inl broken) intact⟩
    | none =>
      have intact : ¬stream.Breaks := by
        rw [breaks, error]
        exact fun broken => Bool.false_ne_true broken.1
      dsimp only
      by_cases empty : stream.bytes = []
      · rw [if_pos empty, decide_eq_false (not_not.mpr (.inr empty))]
        exact ⟨buf, rfl, fun left => absurd (.inr empty) left⟩
      · rw [if_neg empty, decide_eq_true (not_or.mpr ⟨intact, empty⟩)]
        exact ⟨_, rfl, fun _ => rfl⟩

theorem readLine_eq (buf : Buffer 1024) (stream : Option Stream) (closed : Bool) :
    ∃ after, readLine buf stream closed = some (firstLine stream closed, after) := by
  cases stream with
  | none =>
    refine ⟨buf, ?_⟩
    unfold firstLine
    split_ifs <;> rfl
  | some stream =>
    obtain ⟨after, result, read⟩ := fgets_eq buf stream
    cases closed with
    | false => exact ⟨after, by simp only [readLine, result, if_true]; rfl⟩
    | true =>
      by_cases nothing : stream.Breaks ∨ stream.bytes = []
      · have absent : firstLine (some stream) true = none := by
          have ended : stream.Breaks ∨ line stream.bytes = [] :=
            nothing.imp_right fun empty => by rw [empty]; rfl
          exact if_pos ended
        refine ⟨after, ?_⟩
        rw [absent]
        simp only [readLine, result, nothing, not_true_eq_false, decide_false, if_true, Bool.true_eq_false, if_false]
      · obtain rfl := read nothing
        obtain ⟨tail, string, short⟩ := filled_eq buf stream
        have shown : firstLine (some stream) true =
            if line stream.bytes = [] then none else some (line stream.bytes) := by
          unfold firstLine
          simp only [Option.bind_some, Bool.true_eq_false, if_false, (not_or.mp nothing).1, false_or]
        rw [shown]
        rcases short with rfl | rfl
        · rw [List.append_nil] at string
          have absent := strrchr_none (newline_notMem_line stream.bytes)
          refine ⟨filled buf stream, ?_⟩
          simp only [readLine, result, nothing, string, absent, Option.bind_eq_bind, Option.bind_some]
          rfl
        · have last := @strrchr_last newline (line stream.bytes)
          refine ⟨(filled buf stream).set (line stream.bytes).length 0, ?_⟩
          simp only [readLine, result, nothing, string, last, cut_eq string, Option.bind_eq_bind, Option.bind_some]
          rfl

/-- Whatever `buf` held, whatever is in the stream and wherever reading it fails, both functions return its first line,
up to a zero and cut after 1022 bytes, if that is not empty and nothing fails before its end. -/
theorem first_line_shown (buf : Buffer 1024) (stream : Option Stream) (closed : Bool) :
    (∃ after, cat buf stream closed = some (firstLine stream closed, after)) ∧
    (∃ after, runCommand buf stream closed = some (firstLine stream closed, after)) ∧
    ∀ string, firstLine stream closed = some string → 0 ∉ string ∧ newline ∉ string ∧ string.length ≤ 1022 ∧
      ∃ content, stream = some content ∧ string <+: content.bytes := by
  refine ⟨readLine_eq buf stream closed, readLine_eq buf stream closed, ?_⟩
  intro string shown
  unfold firstLine at shown
  split_ifs at shown
  obtain ⟨content, rfl, read⟩ := Option.bind_eq_some_iff.mp shown
  split_ifs at read
  cases read
  have front : line content.bytes <+: content.bytes.take 1022 := List.takeWhile_prefix _
  refine ⟨zero_notMem_line content.bytes, newline_notMem_line content.bytes, ?_, content, rfl, ?_⟩
  · exact front.length_le.trans (List.length_take_le 1022 content.bytes)
  · exact front.trans (List.take_prefix 1022 content.bytes)

/-- An error in the second line, and the same one in the first. -/
example : firstLine (some ⟨[0x61, 0x0A, 0x62], some (Buffer.zeroed 1024)⟩) true = some [0x61] ∧
    firstLine (some ⟨[0x61], some (Buffer.zeroed 1024)⟩) true = none := by decide

end SlStatus.FirstLine
