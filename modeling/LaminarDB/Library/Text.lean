import Mathlib

/-!
# Texts and decimal numbers

Texts that start or end with a given one, texts without the blanks around them, and padded
decimal numbers: what is rendered is read back.
-/

namespace LaminarDB.Library.Text

open List

def startsWith (front text : String) : Bool := front.toList.isPrefixOf text.toList

def stripFront (front text : String) : Option String :=
  if startsWith front text then some (String.ofList (text.toList.drop front.toList.length))
  else none

theorem startsWith_append {front rest : String} : startsWith front (front ++ rest) = true := by
  rw [startsWith, String.toList_append, isPrefixOf_iff_prefix]
  exact prefix_append _ _

theorem stripFront_append (front rest : String) : stripFront front (front ++ rest) = some rest := by
  rw [stripFront, if_pos startsWith_append, String.toList_append, drop_left, String.ofList_toList]

def stripBack (back text : String) : Option String :=
  if back.toList.isSuffixOf text.toList then
    some (String.ofList (text.toList.take (text.toList.length - back.toList.length)))
  else none

theorem stripBack_append (back front : String) : stripBack back (front ++ back) = some front := by
  have isBack : back.toList.isSuffixOf (front ++ back).toList = true := by
    rw [String.toList_append, isSuffixOf_iff_suffix]
    exact suffix_append _ _
  rw [stripBack, if_pos isBack, String.toList_append, length_append, Nat.add_sub_cancel,
    take_left, String.ofList_toList]

def trimLetters (letters : List Char) : List Char :=
  ((letters.dropWhile Char.isWhitespace).reverse.dropWhile Char.isWhitespace).reverse

def trim (text : String) : String := String.ofList (trimLetters text.toList)

theorem trimLetters_of_not_blank {letters : List Char}
    (noBlanks : ∀ letter ∈ letters, letter.isWhitespace = false) :
    trimLetters letters = letters := by
  have keeps : ∀ list : List Char, (∀ letter ∈ list, letter.isWhitespace = false) →
      list.dropWhile Char.isWhitespace = list := by
    intro list noBlank
    cases list with
    | nil => rfl
    | cons first rest =>
      apply dropWhile_cons_of_neg
      rw [noBlank first mem_cons_self]
      exact Bool.false_ne_true
  rw [trimLetters, keeps letters noBlanks, keeps letters.reverse fun letter mem =>
    noBlanks letter (mem_reverse.mp mem), reverse_reverse]

theorem trim_of_not_blank {text : String}
    (noBlanks : ∀ letter ∈ text.toList, letter.isWhitespace = false) : trim text = text := by
  rw [trim, trimLetters_of_not_blank noBlanks, String.ofList_toList]

def digits (width number : Nat) : List Char :=
  (Nat.toDigits 10 number).leftpad width '0'

def parseDigits (bound : Nat) (letters : List Char) : Option Nat :=
  if letters ≠ [] ∧ letters.all Char.isDigit = true ∧ Nat.ofDigitChars 10 letters 0 < bound then
    some (Nat.ofDigitChars 10 letters 0)
  else none

def parseUnsigned (bound : Nat) (letters : List Char) : Option Nat :=
  match letters with
  | '+' :: rest => parseDigits bound rest
  | rest => parseDigits bound rest

theorem isDigit_of_mem_digits {width number : Nat} {letter : Char}
    (mem : letter ∈ digits width number) : letter.isDigit = true := by
  rcases mem_append.mp mem with isZero | isDigit
  · obtain rfl := eq_of_mem_replicate isZero
    rfl
  · exact Nat.isDigit_of_mem_toDigits (by decide) (by decide) isDigit

theorem digits_ne_nil {width number : Nat} : digits width number ≠ [] := by
  intro isEmpty
  have noDigits := (append_eq_nil_iff.mp isEmpty).2
  have positive : 0 < (Nat.toDigits 10 number).length := Nat.length_toDigits_pos
  rw [noDigits] at positive
  cases positive

theorem ofDigitChars_zeros (count : Nat) :
    Nat.ofDigitChars 10 (List.replicate count '0') 0 = 0 := by
  induction count with
  | zero => rfl
  | succ count ih => exact ih

theorem parseUnsigned_digits {bound number : Nat} (small : number < bound) (width : Nat) :
    parseUnsigned bound (digits width number) = some number := by
  have value : Nat.ofDigitChars 10 (digits width number) 0 = number := by
    rw [digits, List.leftpad, Nat.ofDigitChars_append, ofDigitChars_zeros,
      Nat.ofDigitChars_toDigits (by decide) (by decide)]
  have allDigits : (digits width number).all Char.isDigit = true :=
    all_eq_true.mpr fun _ => isDigit_of_mem_digits
  have noSign : parseUnsigned bound (digits width number) =
      parseDigits bound (digits width number) := by
    unfold parseUnsigned
    split
    · rename_i rest isDigits
      have sign : '+' ∈ digits width number := by
        rw [isDigits]
        exact mem_cons_self
      exact absurd (isDigit_of_mem_digits sign) (by decide)
    · rfl
  rw [noSign, parseDigits, if_pos ⟨digits_ne_nil, allDigits, by rwa [value]⟩, value]

theorem not_blank_of_isDigit {letter : Char} (isDigit : letter.isDigit = true) :
    letter.isWhitespace = false := by
  have atLeast : 48 ≤ letter.val.toNat := by
    simp only [Char.isDigit, Bool.and_eq_true, decide_eq_true_eq] at isDigit
    exact UInt32.le_iff_toNat_le.mp isDigit.1
  have notBlank : ∀ blank : Char, blank.val.toNat < 48 → letter ≠ blank := by
    rintro blank small rfl
    omega
  simp [Char.isWhitespace, notBlank ' ' (by decide), notBlank '\t' (by decide),
    notBlank '\r' (by decide), notBlank '\n' (by decide)]

end LaminarDB.Library.Text
