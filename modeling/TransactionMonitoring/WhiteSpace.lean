import Mathlib.Data.List.DropRight

/-! White space, and texts without any at their ends.

Python and JavaScript differ in what they take for white space, not in how they strip it.
-/
namespace TransactionMonitoring.WhiteSpace

/-- The characters that `str.strip` strips, and that `\s` matches. -/
def spaces : List Char :=
  ['\t', '\n', '\x0b', '\x0c', '\r', '\x1c', '\x1d', '\x1e', '\x1f', ' ', '\x85', '\xa0', '\u1680', '\u2000',
   '\u2001', '\u2002', '\u2003', '\u2004', '\u2005', '\u2006', '\u2007', '\u2008', '\u2009', '\u200a', '\u2028',
   '\u2029', '\u202f', '\u205f', '\u3000']

def isSpace (char : Char) : Bool := spaces.contains char

/-- What `trim` takes for white space or a line end. -/
def isTrimmable (char : Char) : Bool :=
  [0x9, 0xA, 0xB, 0xC, 0xD, 0x20, 0xA0, 0x1680, 0x2028, 0x2029, 0x202F, 0x205F, 0x3000, 0xFEFF].contains char.toNat ||
    (0x2000 ≤ char.toNat && char.toNat ≤ 0x200A)

/-- What is left without the characters at either end that are blank. -/
def stripOf (blank : Char → Bool) (chars : List Char) : List Char := (chars.dropWhile blank).rdropWhile blank

/-- `str.strip`. -/
def strip (text : String) : String := String.ofList (stripOf isSpace text.toList)

/-- `trim` of JavaScript. -/
def trim (text : String) : String := String.ofList (stripOf isTrimmable text.toList)

variable {blank : Char → Bool} {chars : List Char}

theorem length_stripOf_le (blank : Char → Bool) (chars : List Char) : (stripOf blank chars).length ≤ chars.length :=
  (List.rdropWhile_prefix blank _).length_le.trans (List.dropWhile_suffix blank).length_le

/-- A text is left alone where neither end is blank, and nowhere else. -/
theorem stripOf_eq_self_iff :
    stripOf blank chars = chars ↔ chars.dropWhile blank = chars ∧ chars.rdropWhile blank = chars := by
  constructor
  · intro same
    have front : chars.dropWhile blank = chars := by
      apply (List.dropWhile_suffix blank).eq_of_length_le
      calc chars.length = (stripOf blank chars).length := by rw [same]
        _ ≤ (chars.dropWhile blank).length := (List.rdropWhile_prefix blank _).length_le
    rw [stripOf, front] at same
    exact ⟨front, same⟩
  · rintro ⟨front, back⟩
    rw [stripOf, front, back]

theorem stripOf_eq_self (clear : ∀ char ∈ chars, blank char = false) : stripOf blank chars = chars := by
  rw [stripOf_eq_self_iff, List.dropWhile_eq_self_iff, List.rdropWhile_eq_self_iff]
  constructor
  · exact fun nonempty => Bool.eq_false_iff.mp (clear _ (List.getElem_mem nonempty))
  · exact fun nonempty => Bool.eq_false_iff.mp (clear _ (List.getLast_mem nonempty))

/-- What starts with a character that is not blank keeps it. -/
theorem stripOf_cons_ne_nil {first : Char} (solid : blank first = false) : stripOf blank (first :: chars) ≠ [] := by
  intro empty
  rw [stripOf, List.dropWhile_cons, solid, if_neg Bool.false_ne_true, List.rdropWhile_eq_nil_iff] at empty
  have stripped := empty first List.mem_cons_self
  rw [solid] at stripped
  cases stripped

theorem trim_eq_iff (text : String) :
    trim text = text ↔ text.toList.dropWhile isTrimmable = text.toList ∧
      text.toList.rdropWhile isTrimmable = text.toList := by
  rw [← stripOf_eq_self_iff, trim]
  constructor
  · intro same
    have chars := congrArg String.toList same
    rwa [String.toList_ofList] at chars
  · intro same
    rw [same, String.ofList_toList]

theorem trim_clear {text : String} (clear : ∀ char ∈ text.toList, isTrimmable char = false) : trim text = text := by
  rw [trim, stripOf_eq_self clear, String.ofList_toList]

end TransactionMonitoring.WhiteSpace
