import Mathlib.Data.List.Basic

/-! Base64, and a reader that is not strict.

The reader skips what is not in the alphabet, stops at the padding that ends a group, and takes no
text that breaks off within one.  Whatever is written is read back.
-/
namespace TransactionMonitoring.Base64

def alphabet : List Char := "ABCDEFGHIJKLMNOPQRSTUVWXYZabcdefghijklmnopqrstuvwxyz0123456789+/".toList

def symbol (value : ℕ) : Char := alphabet.getD value 'A'

def value? (char : Char) : Option ℕ := if char ∈ alphabet then some (alphabet.idxOf char) else none

/-- `b64encode`. -/
def encode : List UInt8 → List Char
  | [] => []
  | [first] => [symbol (first.toNat / 4), symbol (first.toNat % 4 * 16), '=', '=']
  | [first, second] =>
      [symbol (first.toNat / 4), symbol (first.toNat % 4 * 16 + second.toNat / 16), symbol (second.toNat % 16 * 4), '=']
  | first :: second :: third :: rest =>
      symbol (first.toNat / 4) :: symbol (first.toNat % 4 * 16 + second.toNat / 16) ::
        symbol (second.toNat % 16 * 4 + third.toNat / 64) :: symbol (third.toNat % 64) :: encode rest

/-- How far a group is read, the bits that are left of it, and the padding since the last of them. -/
structure State where
  quadPos : ℕ := 0
  leftchar : ℕ := 0
  pads : ℕ := 0
  out : List UInt8 := []
deriving DecidableEq, Repr

/-- A value of six bits. -/
def State.push (state : State) (value : ℕ) : State :=
  match state.quadPos with
  | 0 => { state with quadPos := 1, leftchar := value, pads := 0 }
  | 1 => ⟨2, value % 16, 0, state.out ++ [UInt8.ofNat (state.leftchar * 4 + value / 16)]⟩
  | 2 => ⟨3, value % 4, 0, state.out ++ [UInt8.ofNat (state.leftchar * 16 + value / 4)]⟩
  | _ => ⟨0, 0, 0, state.out ++ [UInt8.ofNat (state.leftchar * 64 + value)]⟩

/-- `a2b_base64`. -/
def decodeFrom (state : State) : List Char → Option (List UInt8)
  | [] => if state.quadPos = 0 then some state.out else none
  | char :: rest =>
      if char = '=' then
        if 2 ≤ state.quadPos then
          if 4 ≤ state.quadPos + (state.pads + 1) then some state.out
          else decodeFrom { state with pads := state.pads + 1 } rest
        else decodeFrom state rest
      else
        match value? char with
        | none => decodeFrom state rest
        | some value => decodeFrom (state.push value) rest

/-- `b64decode`. -/
def decode (text : List Char) : Option (List UInt8) :=
  if text.all (·.toNat < 128) then decodeFrom {} text else none

theorem value?_symbol : ∀ value < 64, value? (symbol value) = some value := by decide +kernel

theorem symbol_ne_pad : ∀ value < 64, symbol value ≠ '=' := by decide +kernel

theorem symbol_ascii : ∀ value < 64, (symbol value).toNat < 128 := by decide +kernel

/-- A symbol is read as its value. -/
theorem decodeFrom_symbol {state : State} {value : ℕ} (fits : value < 64) (rest : List Char) :
    decodeFrom state (symbol value :: rest) = decodeFrom (state.push value) rest := by
  rw [decodeFrom, if_neg (symbol_ne_pad value fits), value?_symbol value fits]

theorem ofNat_eq (byte : UInt8) {value : ℕ} (same : value = byte.toNat) : UInt8.ofNat value = byte := by
  rw [same, UInt8.ofNat_toNat]

/-- What is written is read back behind what was read before. -/
theorem decodeFrom_encode (bytes : List UInt8) (out : List UInt8) :
    decodeFrom { out } (encode bytes) = some (out ++ bytes) := by
  induction bytes using encode.induct generalizing out with
  | case1 =>
    rw [encode, decodeFrom, if_pos rfl, List.append_nil]
  | case2 first =>
    have small := first.toNat_lt
    rw [encode, decodeFrom_symbol (by omega), decodeFrom_symbol (by omega)]
    simp only [State.push, decodeFrom, if_true]
    rw [ofNat_eq first (by omega)]
    rfl
  | case3 first second =>
    have small := first.toNat_lt
    have smallToo := second.toNat_lt
    rw [encode, decodeFrom_symbol (by omega), decodeFrom_symbol (by omega), decodeFrom_symbol (by omega)]
    simp only [State.push, decodeFrom, if_true]
    rw [ofNat_eq first (by omega), ofNat_eq second (by omega), List.append_assoc]
    rfl
  | case4 first second third rest ih =>
    have small := first.toNat_lt
    have smallToo := second.toNat_lt
    have last := third.toNat_lt
    rw [encode, decodeFrom_symbol (by omega), decodeFrom_symbol (by omega), decodeFrom_symbol (by omega),
      decodeFrom_symbol (by omega)]
    simp only [State.push]
    rw [ofNat_eq first (by omega), ofNat_eq second (by omega), ofNat_eq third (by omega),
      ih, List.append_assoc, List.append_assoc, List.append_assoc]
    rfl

theorem encode_ascii (bytes : List UInt8) : (encode bytes).all (·.toNat < 128) = true := by
  refine List.all_eq_true.mpr ?_
  induction bytes using encode.induct with
  | case1 => exact List.forall_mem_nil _
  | case2 first =>
    have small := first.toNat_lt
    simp only [encode, List.forall_mem_cons, decide_eq_true_eq]
    exact ⟨symbol_ascii _ (by omega), symbol_ascii _ (by omega), by decide, by decide, List.forall_mem_nil _⟩
  | case3 first second =>
    have small := first.toNat_lt
    have smallToo := second.toNat_lt
    simp only [encode, List.forall_mem_cons, decide_eq_true_eq]
    exact ⟨symbol_ascii _ (by omega), symbol_ascii _ (by omega), symbol_ascii _ (by omega), by decide,
      List.forall_mem_nil _⟩
  | case4 first second third rest ih =>
    have small := first.toNat_lt
    have smallToo := second.toNat_lt
    have last := third.toNat_lt
    simp only [encode, List.forall_mem_cons, decide_eq_true_eq]
    exact ⟨symbol_ascii _ (by omega), symbol_ascii _ (by omega), symbol_ascii _ (by omega), symbol_ascii _ (by omega),
      fun char member => of_decide_eq_true (ih char member)⟩

/-- Base64 reads back what it wrote. -/
theorem decode_encode (bytes : List UInt8) : decode (encode bytes) = some bytes := by
  rw [decode, if_pos (encode_ascii bytes), decodeFrom_encode, List.nil_append]

end TransactionMonitoring.Base64
