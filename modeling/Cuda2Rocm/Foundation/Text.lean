import Mathlib.Data.List.Basic

/-!
# Small text files

Files as a kernel writes them: lines, settings of the form `KEY=value` and decimal numbers.
Readers take one line at a time, look for the first line that starts with a key, and extract
a number from the front.
-/

namespace Cuda2Rocm
namespace Foundation

abbrev Text := List Char

namespace Text

/-!
# Lines
-/

/-- The lines that calls of `getline` return, when some of the first one is already read. -/
def linesFrom : Text -> Text -> List Text
  | read, [] => if read = [] then [] else [read]
  | read, c :: rest =>
      if c = '\n' then read :: linesFrom [] rest else linesFrom (read ++ [c]) rest

def lines (text : Text) : List Text := linesFrom [] text

/-- What one call of `getline` leaves in an empty string. -/
def firstLine (text : Text) : Text := (lines text).headD []

/-- A file of these lines. -/
def unlines (content : List Text) : Text := content.flatMap (fun line => line ++ ['\n'])

theorem linesFrom_append (line : Text) (hline : '\n' ∉ line) (rest : Text) :
    forall read : Text, linesFrom read (line ++ '\n' :: rest) =
      (read ++ line) :: linesFrom [] rest := by
  induction line with
  | nil =>
      intro read
      simp only [List.nil_append, List.append_nil, linesFrom, if_true]
  | cons c line ih =>
      intro read
      have hc : c ≠ '\n' := fun heq => hline (heq ▸ List.mem_cons_self)
      have hrest : '\n' ∉ line := fun hmem => hline (List.mem_cons_of_mem c hmem)
      simp only [List.cons_append, linesFrom, if_neg hc]
      rw [ih hrest, List.append_assoc, List.singleton_append]

/-- The lines of a file are read as they were written. -/
theorem lines_unlines (content : List Text) (h : forall line, line ∈ content -> '\n' ∉ line) :
    lines (unlines content) = content := by
  induction content with
  | nil => rfl
  | cons line rest ih =>
      have hline := h line List.mem_cons_self
      have hrest := ih (fun other hother => h other (List.mem_cons_of_mem line hother))
      simp only [unlines, List.flatMap_cons, List.append_assoc, List.singleton_append]
      rw [lines, linesFrom_append line hline, List.nil_append]
      exact congrArg (List.cons line) hrest

theorem firstLine_append (line rest : Text) (hline : '\n' ∉ line) :
    firstLine (line ++ '\n' :: rest) = line := by
  rw [firstLine, lines, linesFrom_append line hline, List.nil_append, List.headD_cons]

/-!
# Settings
-/

/-- What follows the key on the first line that starts with it. -/
def valueOf (key : Text) (content : List Text) : Text :=
  match content.find? (fun line => List.isPrefixOf key line) with
  | none => []
  | some line => line.drop key.length

theorem valueOf_append (key value : Text) (before after : List Text)
    (h : forall line, line ∈ before -> List.isPrefixOf key line = false) :
    valueOf key (before ++ (key ++ value) :: after) = value := by
  have hbefore : before.find? (fun line => List.isPrefixOf key line) = none := by
    apply List.find?_eq_none.mpr
    intro line hline
    rw [h line hline]
    exact Bool.false_ne_true
  have hhere : List.isPrefixOf key (key ++ value) = true :=
    List.isPrefixOf_iff_prefix.mpr (List.prefix_append key value)
  rw [valueOf, List.find?_append, hbefore, Option.none_or, List.find?_cons_of_pos hhere]
  exact List.drop_left

/-!
# Numbers
-/

/-- `isspace` in the C locale. -/
def isSpace (c : Char) : Bool := c == ' ' || (9 ≤ c.toNat && c.toNat ≤ 13)

def intText : Int -> Text
  | .ofNat n => Nat.toDigits 10 n
  | .negSucc n => '-' :: Nat.toDigits 10 (n + 1)

/-- The value of the digits at the front, if there are any. -/
def readDigits (text : Text) : Option Nat :=
  let digits := text.takeWhile Char.isDigit
  if digits = [] then none else some (Nat.ofDigitChars 10 digits 0)

/-- The value of a sign, if there is one, and the digits behind it. -/
def readSigned : Text -> Option Int
  | '-' :: rest => (readDigits rest).map (fun n : Nat => -(n : Int))
  | '+' :: rest => (readDigits rest).map Int.ofNat
  | text => (readDigits text).map Int.ofNat

/-- `stream >> value` into a signed integer with this range. -/
def readInt (low high : Int) (text : Text) : Option Int :=
  (readSigned (text.dropWhile isSpace)).filter (fun n => decide (low ≤ n ∧ n ≤ high))

theorem toDigits_ne_nil (n : Nat) : Nat.toDigits 10 n ≠ [] := by
  rw [Nat.toDigits_eq_if (by decide)]
  split
  · exact List.cons_ne_nil _ _
  · exact List.append_ne_nil_of_right_ne_nil _ (List.cons_ne_nil _ _)

theorem isDigit_of_mem {n : Nat} {c : Char} (h : c ∈ Nat.toDigits 10 n) : c.isDigit = true :=
  Nat.isDigit_of_mem_toDigits (by decide) (by decide) h

theorem readDigits_append (n : Nat) (rest : Text) :
    readDigits (Nat.toDigits 10 n ++ '\n' :: rest) = some n := by
  have hdigits : (Nat.toDigits 10 n ++ '\n' :: rest).takeWhile Char.isDigit =
      Nat.toDigits 10 n := by
    rw [List.takeWhile_append_of_pos (fun c hc => isDigit_of_mem hc)]
    rw [List.takeWhile_cons_of_neg (by decide), List.append_nil]
  simp only [readDigits, hdigits, if_neg (toDigits_ne_nil n), Nat.ofDigitChars_ten_toDigits]

theorem not_isSpace_of_isDigit {c : Char} (h : c.isDigit = true) : isSpace c = false := by
  simp only [Char.isDigit, Bool.and_eq_true, decide_eq_true_eq] at h
  have hlow : 48 ≤ c.toNat := UInt32.le_iff_toNat_le.mp h.left
  have hblank : c ≠ ' ' := by
    intro heq
    rw [heq] at hlow
    exact absurd hlow (by decide)
  simp only [isSpace, Bool.or_eq_false_iff, beq_eq_false_iff_ne, Bool.and_eq_false_iff,
    decide_eq_false_iff_not]
  exact ⟨hblank, Or.inr (by omega)⟩

theorem readSigned_of_isDigit {c : Char} {text : Text} (h : c.isDigit = true) :
    readSigned (c :: text) = (readDigits (c :: text)).map Int.ofNat := by
  have hminus : c ≠ '-' := by
    intro heq
    rw [heq] at h
    exact absurd h (by decide)
  have hplus : c ≠ '+' := by
    intro heq
    rw [heq] at h
    exact absurd h (by decide)
  unfold readSigned
  split
  · rename_i heq
    exact absurd (List.cons.inj heq).1 hminus
  · rename_i heq
    exact absurd (List.cons.inj heq).1 hplus
  · rfl

/-- A number on a line of its own is extracted as it was written. -/
theorem readInt_intText {low high n : Int} (hlow : low ≤ n) (hhigh : n ≤ high) (rest : Text) :
    readInt low high (intText n ++ '
' :: rest) = some n := by
  have hrange : decide (low ≤ n ∧ n ≤ high) = true := decide_eq_true ⟨hlow, hhigh⟩
  have hsigned : readSigned ((intText n ++ '
' :: rest).dropWhile isSpace) = some n := by
    cases n with
    | ofNat n =>
        have hvalue := readDigits_append n rest
        cases hdigits : Nat.toDigits 10 n with
        | nil => exact absurd hdigits (toDigits_ne_nil n)
        | cons c digits =>
            have hc : c.isDigit = true := isDigit_of_mem (hdigits ▸ List.mem_cons_self)
            have hspace := Bool.eq_false_iff.mp (not_isSpace_of_isDigit hc)
            rw [hdigits, List.cons_append] at hvalue
            rw [intText, hdigits, List.cons_append, List.dropWhile_cons_of_neg hspace,
              readSigned_of_isDigit hc, hvalue, Option.map_some]
    | negSucc n =>
        have hspace : isSpace '-' = false := by decide
        rw [intText, List.cons_append,
          List.dropWhile_cons_of_neg (Bool.eq_false_iff.mp hspace), readSigned,
          readDigits_append, Option.map_some]
        rfl
  rw [readInt, hsigned, Option.filter_some, hrange]
  rfl

end Text
end Foundation
end Cuda2Rocm
