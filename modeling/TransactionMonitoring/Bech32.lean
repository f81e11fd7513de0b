import Mathlib.Data.Nat.Digits.Defs
import Mathlib.Data.Nat.ModEq
import TransactionMonitoring.WhiteSpace

/-! Bech32 addresses and the credentials in them.

The strict decoder verifies the checksum; the grouping key of the scorers strips it unread and
falls back to the address.  The clustering sidecar carries a copy of the strict decoder.  A
text is the list of its characters.
-/
namespace TransactionMonitoring.Bech32
open WhiteSpace (isSpace stripOf stripOf_eq_self)

/-! ## Regrouping bits -/

/-- The variables of the loop in `convertbits`. -/
structure Regrouping where
  acc : Nat
  bits : Nat
  ret : List Nat
deriving DecidableEq, Repr

/-- `while bits >= tobits`; every round takes at least one bit, so `fuel = bits` is enough. -/
def emit (tobits : Nat) : Nat → Regrouping → Regrouping
  | 0, state => state
  | fuel + 1, state =>
      if tobits ≤ state.bits then
        let bits := state.bits - tobits
        emit tobits fuel { state with bits, ret := state.ret ++ [(state.acc >>> bits) &&& (1 <<< tobits - 1)] }
      else state

/-- One round of the loop over `data`. -/
def push (frombits tobits : Nat) (state : Regrouping) (value : Nat) : Regrouping :=
  let bits := state.bits + frombits
  let acc := ((state.acc <<< frombits) ||| value) &&& (1 <<< (frombits + tobits - 1) - 1)
  emit tobits bits { state with acc, bits }

def regroup (frombits tobits : Nat) : List Nat → Regrouping → Option Regrouping
  | [], state => some state
  | value :: rest, state =>
      if value >>> frombits ≠ 0 then none else regroup frombits tobits rest (push frombits tobits state value)

/-- `convertbits`. -/
def convertbits (data : List Nat) (frombits tobits : Nat) (pad : Bool) : Option (List Nat) :=
  (regroup frombits tobits data ⟨0, 0, []⟩).bind fun state =>
    let last := (state.acc <<< (tobits - state.bits)) &&& (1 <<< tobits - 1)
    if pad then some (if state.bits ≠ 0 then state.ret ++ [last] else state.ret)
    else if frombits ≤ state.bits ∨ last ≠ 0 then none
    else some state.ret

/-- The number with these digits, the first one leading. -/
def ofGroups (width : Nat) (groups : List Nat) : Nat := Nat.ofDigits (2 ^ width) groups.reverse

/-- What the loop has made of the `consumed` groups with the number `number`: their leading
bits are in `ret` and the rest is at the low end of `acc`. -/
structure Regroups (frombits tobits consumed number : Nat) (state : Regrouping) : Prop where
  length : tobits * state.ret.length + state.bits = frombits * consumed
  leading : ofGroups tobits state.ret = number / 2 ^ state.bits
  trailing : state.acc % 2 ^ state.bits = number % 2 ^ state.bits
  fits : ∀ group ∈ state.ret, group < 2 ^ tobits

section
variable {frombits tobits consumed number : Nat} {state : Regrouping}

theorem ofGroups_concat (width : Nat) (groups : List Nat) (group : Nat) :
    ofGroups width (groups ++ [group]) = ofGroups width groups * 2 ^ width + group := by
  rw [ofGroups, List.reverse_append, List.reverse_singleton, List.singleton_append, Nat.ofDigits_cons,
    ← ofGroups]
  ring

/-- The first group is what is left of the number above the others. -/
theorem ofGroups_cons_div (width group : Nat) (groups : List Nat) (fits : ∀ other ∈ groups, other < 2 ^ width)
    (wide : 0 < width) : ofGroups width (group :: groups) / 2 ^ (width * groups.length) = group := by
  have below : Nat.ofDigits (2 ^ width) groups.reverse < (2 ^ width) ^ groups.reverse.length := by
    refine Nat.ofDigits_lt_base_pow_length (Nat.one_lt_two_pow wide.ne') ?_
    intro other member
    exact fits other (List.mem_reverse.mp member)
  rw [List.length_reverse] at below
  rw [ofGroups, List.reverse_cons, Nat.ofDigits_append, Nat.ofDigits_singleton, List.length_reverse, Nat.pow_mul,
    Nat.add_mul_div_left _ _ (Nat.pow_pos (Nat.two_pow_pos width)), Nat.div_eq_of_lt below, Nat.zero_add]

private theorem regroups_emit_one (regroups : Regroups frombits tobits consumed number state)
    (enough : tobits ≤ state.bits) :
    Regroups frombits tobits consumed number { state with
      bits := state.bits - tobits
      ret := state.ret ++ [(state.acc >>> (state.bits - tobits)) &&& (1 <<< tobits - 1)] } := by
  obtain ⟨left, split⟩ : ∃ left, state.bits = left + tobits := ⟨_, (Nat.sub_add_cancel enough).symm⟩
  have bits : state.bits - tobits = left := by omega
  have group : (state.acc >>> left) &&& (1 <<< tobits - 1) = number / 2 ^ left % 2 ^ tobits := by
    rw [Nat.one_shiftLeft, Nat.and_two_pow_sub_one_eq_mod, Nat.shiftRight_eq_div_pow, ← Nat.mod_mul_right_div_self,
      ← Nat.mod_mul_right_div_self, ← Nat.pow_add, ← split, regroups.trailing]
  simp only [bits, group]
  refine ⟨?_, ?_, ?_, ?_⟩
  · have length := regroups.length
    rw [split] at length
    simp only [List.length_append, List.length_singleton, Nat.mul_add, ← length]
    omega
  · rw [ofGroups_concat, regroups.leading, split, Nat.pow_add, ← Nat.div_div_eq_div_mul]
    exact Nat.div_add_mod' _ _
  · have divides : 2 ^ left ∣ 2 ^ state.bits := Nat.pow_dvd_pow 2 (by omega)
    rw [← Nat.mod_mod_of_dvd state.acc divides, regroups.trailing, Nat.mod_mod_of_dvd number divides]
  · intro other member
    rcases List.mem_append.mp member with earlier | last
    · exact regroups.fits other earlier
    · obtain rfl := List.mem_singleton.mp last
      exact Nat.mod_lt _ (Nat.two_pow_pos tobits)

private theorem regroups_emit {fuel : Nat} (wide : 0 < tobits) (enough : state.bits ≤ fuel)
    (regroups : Regroups frombits tobits consumed number state) :
    Regroups frombits tobits consumed number (emit tobits fuel state) ∧ (emit tobits fuel state).bits < tobits := by
  induction fuel generalizing state with
  | zero =>
    refine ⟨regroups, ?_⟩
    simp only [emit]
    omega
  | succ fuel ih =>
    simp only [emit]
    split
    · rename_i more
      exact ih (by simp only; omega) (regroups_emit_one regroups more)
    · rename_i few
      exact ⟨regroups, Nat.not_le.mp few⟩

private theorem regroups_feed {value : Nat} (fits : value < 2 ^ frombits) (few : state.bits < tobits)
    (regroups : Regroups frombits tobits consumed number state) :
    Regroups frombits tobits (consumed + 1) (number * 2 ^ frombits + value) { state with
      acc := ((state.acc <<< frombits) ||| value) &&& (1 <<< (frombits + tobits - 1) - 1)
      bits := state.bits + frombits } := by
  have shifted : ((state.acc <<< frombits) ||| value) &&& (1 <<< (frombits + tobits - 1) - 1) =
      (state.acc * 2 ^ frombits + value) % 2 ^ (frombits + tobits - 1) := by
    rw [Nat.one_shiftLeft, Nat.and_two_pow_sub_one_eq_mod, ← Nat.shiftLeft_add_eq_or_of_lt fits, Nat.shiftLeft_eq]
  rw [shifted]
  refine ⟨?_, ?_, ?_, regroups.fits⟩
  · have length := regroups.length
    simp only [Nat.mul_add, ← length]
    omega
  · have dropped : (number * 2 ^ frombits + value) / 2 ^ frombits = number := by
      rw [Nat.add_comm, Nat.add_mul_div_right _ _ (Nat.two_pow_pos frombits), Nat.div_eq_of_lt fits, Nat.zero_add]
    have halves : (number * 2 ^ frombits + value) / 2 ^ (state.bits + frombits) = number / 2 ^ state.bits := by
      rw [Nat.pow_add, Nat.mul_comm (2 ^ state.bits), ← Nat.div_div_eq_div_mul, dropped]
    exact regroups.leading.trans halves.symm
  · have divides : 2 ^ (state.bits + frombits) ∣ 2 ^ (frombits + tobits - 1) := Nat.pow_dvd_pow 2 (by omega)
    have trailing : state.acc ≡ number [MOD 2 ^ state.bits] := regroups.trailing
    rw [Nat.mod_mod_of_dvd _ divides, Nat.pow_add]
    exact (trailing.mul_right' (2 ^ frombits)).add_right value

private theorem regroups_push {value : Nat} (wide : 0 < tobits) (fits : value < 2 ^ frombits)
    (few : state.bits < tobits) (regroups : Regroups frombits tobits consumed number state) :
    Regroups frombits tobits (consumed + 1) (number * 2 ^ frombits + value) (push frombits tobits state value) ∧
      (push frombits tobits state value).bits < tobits :=
  regroups_emit wide le_rfl (regroups_feed fits few regroups)

/-- The loop keeps the number: what is regrouped are its bits, and fewer than a group of them
are left. -/
theorem regroup_spec {data : List Nat} (wide : 0 < tobits) (fits : ∀ value ∈ data, value < 2 ^ frombits)
    (few : state.bits < tobits) (regroups : Regroups frombits tobits consumed number state) :
    ∃ last, regroup frombits tobits data state = some last ∧ last.bits < tobits ∧
      Regroups frombits tobits (consumed + data.length)
        (number * 2 ^ (frombits * data.length) + ofGroups frombits data) last := by
  induction data generalizing state consumed number with
  | nil => exact ⟨state, rfl, few, by simpa [ofGroups] using regroups⟩
  | cons value rest ih =>
    obtain ⟨here, fits⟩ := List.forall_mem_cons.mp fits
    obtain ⟨pushed, few⟩ := regroups_push wide here few regroups
    obtain ⟨last, run, few, regroups⟩ := ih fits few pushed
    have narrow : value >>> frombits = 0 := by rw [Nat.shiftRight_eq_div_pow, Nat.div_eq_of_lt here]
    refine ⟨last, by simpa [regroup, narrow] using run, few, ?_⟩
    have total : (number * 2 ^ frombits + value) * 2 ^ (frombits * rest.length) + ofGroups frombits rest =
        number * 2 ^ (frombits * (value :: rest).length) + ofGroups frombits (value :: rest) := by
      rw [ofGroups, ofGroups, List.reverse_cons, Nat.ofDigits_append, Nat.ofDigits_singleton, List.length_reverse,
        List.length_cons, ← Nat.pow_mul, Nat.mul_add, Nat.mul_one, Nat.pow_add]
      ring
    rw [← total, List.length_cons, Nat.add_comm rest.length, ← Nat.add_assoc]
    exact regroups

end

/-! ## The strict decoder -/

/-- `_CHARSET`. -/
def charset : List Char := "qpzry9x8gf2tvdw0s3jn54khce6mua7l".toList

/-- `_CHECKSUM_LEN`. -/
def checksumLen : Nat := 6

def paymentCredBytes : Nat := 28

def generator : List Nat := [0x3B6A57B2, 0x26508E6D, 0x1EA119FA, 0x3D4233DD, 0x2A1462B3]

/-- `_polymod`. -/
def polymod (values : List Nat) : Nat :=
  values.foldl (fun chk value =>
    let top := chk >>> 25
    let chk := ((chk &&& 0x1FFFFFF) <<< 5) ^^^ value
    (List.range 5).foldl (fun chk i => chk ^^^ (if (top >>> i) &&& 1 ≠ 0 then generator.getD i 0 else 0)) chk) 1

/-- `_hrp_expand`. -/
def hrpExpand (hrp : List Char) : List Nat :=
  hrp.map (·.toNat >>> 5) ++ [0] ++ hrp.map (·.toNat &&& 31)

/-- `str.rfind` of a character. -/
def rfind (wanted : Char) : List Char → Option Nat
  | [] => none
  | char :: rest =>
      match rfind wanted rest with
      | some pos => some (pos + 1)
      | none => if char = wanted then some 0 else none

/-- `bech32_decode`.  The characters are ASCII where the case is looked at. -/
def bech32Decode (bech : List Char) : Option (List Char × List Nat) :=
  if bech.any (fun x => x.toNat < 33 || 126 < x.toNat) then none
  else if bech.map Char.toLower ≠ bech ∧ bech.map Char.toUpper ≠ bech then none
  else
    let bech := bech.map Char.toLower
    match rfind '1' bech with
    | none => none
    | some pos =>
        if pos < 1 ∨ bech.length < pos + 7 ∨ 1023 < bech.length then none
        else if ¬(bech.drop (pos + 1)).all (· ∈ charset) then none
        else
          let hrp := bech.take pos
          let data := (bech.drop (pos + 1)).map (charset.idxOf ·)
          if polymod (hrpExpand hrp ++ data) ≠ 1 then none
          else some (hrp, data.take (data.length - checksumLen))

/-- `_decode_address_bytes`. -/
def decodeAddressBytes (address : List Char) : Option (List Nat) :=
  match bech32Decode (stripOf isSpace address) with
  | none => none
  | some decoded => convertbits decoded.2 5 8 false

def hexDigit (n : Nat) : Char := "0123456789abcdef".toList.getD n '0'

/-- `bytes(raw).hex()`, for numbers that are bytes. -/
def bytesHex (raw : List Nat) : List Char := raw.flatMap fun byte => [hexDigit (byte / 16), hexDigit (byte % 16)]

/-- The bytes `[1:29]` of a decoded address, if it is as long. -/
def paymentCredential (address : List Char) : Option (List Nat) :=
  match decodeAddressBytes address with
  | none => none
  | some raw => if raw.length < 1 + paymentCredBytes then none else some ((raw.drop 1).take paymentCredBytes)

def paymentCredentialHex (address : List Char) : Option (List Char) := (paymentCredential address).map bytesHex

/-! ## The grouping key of the scorers -/

/-- `str.lower`; of ASCII text it is the letter by letter mapping. -/
structure Lower where
  lower : List Char → List Char
  ascii : ∀ text : List Char, (∀ char ∈ text, char.toNat < 128) → lower text = text.map Char.toLower

/-- The loop over the characters: their values, unless one is not in the character set. -/
def findAll : List Char → Option (List Nat)
  | [] => some []
  | c :: rest => if c ∈ charset then (findAll rest).map (charset.idxOf c :: ·) else none

def paymentCredentialOrRaw (str : Lower) (addr : List Char) : List Char :=
  match rfind '1' addr with
  | none => addr
  | some pos =>
      let dataPart := str.lower (addr.drop (pos + 1))
      if dataPart.length ≤ checksumLen then addr
      else
        match findAll (dataPart.take (dataPart.length - checksumLen)) with
        | none => addr
        | some data =>
            if 5 * data.length < 8 + paymentCredBytes * 8 then addr
            else
              match convertbits data 5 8 true with
              | none => addr
              | some raw => bytesHex ((raw.drop 1).take paymentCredBytes)

/-! ## The sidecar's copy -/

namespace Sidecar

/-- `bech32_decode` of the sidecar; `_polymod`, `_hrp_expand` and `convertbits` are the same
there. -/
def bech32Decode (bech : List Char) : Option (List Char × List Nat) :=
  if bech.any (fun x => x.toNat < 33 || 126 < x.toNat) then none
  else if bech.map Char.toLower ≠ bech ∧ bech.map Char.toUpper ≠ bech then none
  else
    let bech := bech.map Char.toLower
    match rfind '1' bech with
    | none => none
    | some pos =>
        if pos < 1 ∨ bech.length < pos + 7 ∨ 1023 < bech.length then none
        else if ¬(bech.drop (pos + 1)).all (· ∈ charset) then none
        else
          let hrp := bech.take pos
          let data := (bech.drop (pos + 1)).map (charset.idxOf ·)
          if polymod (hrpExpand hrp ++ data) ≠ 1 then none
          else some (hrp, data.take (data.length - 6))

def decodeAddressBytes (address : List Char) : Option (List Nat) :=
  match bech32Decode (stripOf isSpace address) with
  | none => none
  | some decoded => convertbits decoded.2 5 8 false

def paymentCredentialHex (address : List Char) : Option (List Char) :=
  match decodeAddressBytes address with
  | none => none
  | some raw => if raw.length < 29 then none else some (bytesHex ((raw.drop 1).take 28))

end Sidecar

/-! ## Script addresses -/

/-- `SCRIPT_ADDRESS_PREFIXES`. -/
def scriptAddressPrefixes : List (List Char) :=
  ["addr1w", "addr1z", "addr1x", "addr12", "addr_test1w", "addr_test1z", "addr_test1x", "addr_test12"].map
    String.toList

def isScriptAddress (str : Lower) (address : List Char) : Bool :=
  if address = [] then false else scriptAddressPrefixes.any (·.isPrefixOf (str.lower address))

/-! ## Strict and lenient credentials -/

section
variable {text address hrp : List Char} {data raw : List Nat} {frombits tobits pos : Nat}

theorem rfind_map {wanted : Char} {f : Char → Char} (fixed : ∀ char, f char = wanted ↔ char = wanted) :
    rfind wanted (text.map f) = rfind wanted text := by
  induction text with
  | nil => rfl
  | cons char rest ih => simp only [List.map_cons, rfind, ih, fixed]

theorem rfind_split {wanted : Char} (found : rfind wanted text = some pos) :
    text = text.take pos ++ wanted :: text.drop (pos + 1) := by
  induction text generalizing pos with
  | nil => cases found
  | cons char rest ih =>
    simp only [rfind] at found
    split at found
    · rename_i later there
      obtain rfl := Option.some.inj found
      simpa using ih there
    · split at found
      · rename_i here
        obtain rfl := Option.some.inj found
        simp [here]
      · cases found

theorem toLower_eq_one_iff (char : Char) : char.toLower = '1' ↔ char = '1' := by
  unfold Char.toLower
  split
  · rename_i upper
    refine iff_of_false (fun same => ?_) (fun same => ?_)
    · have value := congrArg (fun char : Char => char.val.toNat) same
      have low : 65 ≤ char.val.toNat := upper.1
      have high : char.val.toNat ≤ 90 := upper.2
      simp only [UInt32.toNat_add] at value
      change (char.val.toNat + 32) % 2 ^ 32 = 49 at value
      omega
    · subst same
      revert upper
      decide
  · exact Iff.rfl

theorem findAll_eq (known : ∀ char ∈ text, char ∈ charset) : findAll text = some (text.map (charset.idxOf ·)) := by
  induction text with
  | nil => rfl
  | cons char rest ih =>
    obtain ⟨here, known⟩ := List.forall_mem_cons.mp known
    simp [findAll, here, ih known]

theorem idxOf_lt {char : Char} (known : char ∈ charset) : charset.idxOf char < 2 ^ 5 :=
  List.idxOf_lt_length_of_mem known

/-- What a text must be to decode, and what is decoded. -/
theorem of_bech32Decode (decoded : bech32Decode text = some (hrp, data)) :
    ∃ pos, rfind '1' text = some pos ∧ (∀ char ∈ text, char.toNat < 128) ∧
      hrp = (text.map Char.toLower).take pos ∧
      checksumLen ≤ (text.drop (pos + 1)).length ∧
      (∀ char ∈ (text.drop (pos + 1)).map Char.toLower, char ∈ charset) ∧
      data = (((text.drop (pos + 1)).map Char.toLower).take ((text.drop (pos + 1)).length - checksumLen)).map
        (charset.idxOf ·) := by
  unfold bech32Decode at decoded
  split at decoded
  · cases decoded
  rename_i printable
  split at decoded
  · cases decoded
  simp only [rfind_map toLower_eq_one_iff] at decoded
  split at decoded
  · cases decoded
  rename_i pos found
  split at decoded
  · cases decoded
  rename_i shape
  split at decoded
  · cases decoded
  rename_i known
  split at decoded
  · cases decoded
  obtain ⟨rfl, rfl⟩ := Prod.mk.inj (Option.some.inj decoded)
  refine ⟨pos, found, ?_, rfl, ?_, ?_, ?_⟩
  · intro char member
    have inRange := mt (fun out => List.any_eq_true.mpr ⟨char, member, out⟩) printable
    simp only [Bool.or_eq_true, decide_eq_true_eq, not_or] at inRange
    omega
  · simp only [List.length_map] at shape
    rw [List.length_drop, checksumLen]
    omega
  · rw [not_not, List.all_eq_true, ← List.map_drop] at known
    simpa using known
  · rw [← List.map_drop, List.length_map, List.length_map, List.map_take]

/-- Padding only adds a group to what regroups without it. -/
theorem convertbits_pad (unpadded : convertbits data frombits tobits false = some raw) :
    ∃ last, convertbits data frombits tobits true = some (raw ++ last) := by
  unfold convertbits at unpadded ⊢
  cases run : regroup frombits tobits data ⟨0, 0, []⟩ with
  | none =>
    rw [run] at unpadded
    cases unpadded
  | some state =>
    simp only [run, Option.bind_some, Bool.false_eq_true, if_false, if_true] at unpadded ⊢
    split at unpadded
    · cases unpadded
    · obtain rfl := Option.some.inj unpadded
      split
      · exact ⟨_, rfl⟩
      · exact ⟨[], by rw [List.append_nil]⟩

/-- Without padding the groups are the leading bits of the number. -/
theorem convertbits_spec (wide : 0 < tobits) (fits : ∀ value ∈ data, value < 2 ^ frombits)
    (unpadded : convertbits data frombits tobits false = some raw) :
    ∃ bits, tobits * raw.length + bits = frombits * data.length ∧
      ofGroups tobits raw = ofGroups frombits data / 2 ^ bits ∧ ∀ group ∈ raw, group < 2 ^ tobits := by
  have start : Regroups frombits tobits 0 0 ⟨0, 0, []⟩ := ⟨by simp, by simp [ofGroups], rfl, nofun⟩
  obtain ⟨last, run, -, regroups⟩ := regroup_spec wide fits wide start
  simp only [convertbits, run, Option.bind_some, Bool.false_eq_true, if_false] at unpadded
  split at unpadded
  · cases unpadded
  · obtain rfl := Option.some.inj unpadded
    refine ⟨last.bits, ?_, ?_, regroups.fits⟩
    · simpa using regroups.length
    · simpa using regroups.leading

theorem hexDigit_inj : ∀ a < 16, ∀ b < 16, hexDigit a = hexDigit b → a = b := by decide

theorem bytesHex_inj {other : List Nat} (fits : ∀ byte ∈ raw, byte < 256) (fitsOther : ∀ byte ∈ other, byte < 256)
    (same : bytesHex raw = bytesHex other) : raw = other := by
  induction raw generalizing other with
  | nil =>
    cases other with
    | nil => rfl
    | cons byte rest => cases same
  | cons byte rest ih =>
    cases other with
    | nil => cases same
    | cons first others =>
      obtain ⟨here, fits⟩ := List.forall_mem_cons.mp fits
      obtain ⟨there, fitsOther⟩ := List.forall_mem_cons.mp fitsOther
      simp only [bytesHex, List.flatMap_cons, List.cons_append, List.nil_append, List.cons.injEq] at same
      obtain ⟨high, low, same⟩ := same
      have high := hexDigit_inj _ (by omega) _ (by omega) high
      have low := hexDigit_inj _ (by omega) _ (by omega) low
      have bytes : byte = first := by omega
      rw [bytes, ih fits fitsOther same]

theorem sidecar_paymentCredentialHex (address : List Char) :
    Sidecar.paymentCredentialHex address = paymentCredentialHex address := by
  have same : Sidecar.decodeAddressBytes address = decodeAddressBytes address := rfl
  unfold Sidecar.paymentCredentialHex paymentCredentialHex paymentCredential
  rw [same]
  cases decodeAddressBytes address with
  | none => rfl
  | some raw =>
    rw [paymentCredBytes, apply_ite (Option.map bytesHex)]
    rfl

/-- A credential that decodes strictly is what the scorers group by. -/
theorem paymentCredentialOrRaw_eq (str : Lower) {credential : List Nat}
    (unspaced : ∀ char ∈ address, isSpace char = false) (strict : paymentCredential address = some credential) :
    paymentCredentialOrRaw str address = bytesHex credential ∧ ∀ byte ∈ credential, byte < 256 := by
  unfold paymentCredential decodeAddressBytes at strict
  rw [stripOf_eq_self unspaced] at strict
  cases decoded : bech32Decode address with
  | none =>
    rw [decoded] at strict
    cases strict
  | some pair =>
    obtain ⟨hrp, data⟩ := pair
    obtain ⟨pos, found, ascii, -, long, known, shape⟩ := of_bech32Decode decoded
    simp only [decoded] at strict
    cases regrouped : convertbits data 5 8 false with
    | none =>
      rw [regrouped] at strict
      cases strict
    | some raw =>
      simp only [regrouped] at strict
      split at strict
      · cases strict
      rename_i enough
      obtain rfl := Option.some.inj strict
      have below : ∀ value ∈ data, value < 2 ^ 5 := by
        intro value member
        rw [shape] at member
        obtain ⟨char, inside, rfl⟩ := List.mem_map.mp member
        exact idxOf_lt (known char (List.mem_of_mem_take inside))
      obtain ⟨bits, length, -, fits⟩ := convertbits_spec (by omega) below regrouped
      obtain ⟨last, padded⟩ := convertbits_pad regrouped
      have lowered : str.lower (address.drop (pos + 1)) = (address.drop (pos + 1)).map Char.toLower :=
        str.ascii _ fun char member => ascii char (List.mem_of_mem_drop member)
      have gathered : findAll (((address.drop (pos + 1)).map Char.toLower).take
          ((address.drop (pos + 1)).length - checksumLen)) = some data := by
        rw [shape]
        exact findAll_eq fun char member => known char (List.mem_of_mem_take member)
      have dataLength : data.length = (address.drop (pos + 1)).length - checksumLen := by
        rw [shape, List.length_map, List.length_take, List.length_map]
        omega
      simp only [paymentCredBytes] at enough
      have proper : ¬(address.drop (pos + 1)).length ≤ checksumLen := by omega
      have whole : ¬5 * data.length < 8 + paymentCredBytes * 8 := by
        simp only [paymentCredBytes]
        omega
      refine ⟨?_, fun byte member => fits byte (List.mem_of_mem_drop (List.mem_of_mem_take member))⟩
      simp only [paymentCredentialOrRaw, found, lowered, List.length_map, if_neg proper, gathered, if_neg whole,
        padded]
      congr 1
      rw [List.drop_append_of_le_length (by omega), List.take_append_of_le_length]
      rw [List.length_drop, paymentCredBytes]
      omega

/-- An address whose payment credential decodes strictly has it as its grouping key and in the
sidecar; two such addresses share a key exactly if they carry the same credential. -/
theorem credentials_agree (str : Lower) (address other credential otherCredential : List Char)
    (unspaced : ∀ char ∈ address, isSpace char = false) (otherUnspaced : ∀ char ∈ other, isSpace char = false)
    (strict : paymentCredentialHex address = some credential)
    (otherStrict : paymentCredentialHex other = some otherCredential) :
    paymentCredentialOrRaw str address = credential ∧
    Sidecar.paymentCredentialHex address = some credential ∧
    (paymentCredentialOrRaw str address = paymentCredentialOrRaw str other ↔
      paymentCredential address = paymentCredential other) := by
  obtain ⟨bytes, decoded, rfl⟩ := Option.map_eq_some_iff.mp strict
  obtain ⟨otherBytes, otherDecoded, rfl⟩ := Option.map_eq_some_iff.mp otherStrict
  obtain ⟨key, fits⟩ := paymentCredentialOrRaw_eq str unspaced decoded
  obtain ⟨otherKey, otherFits⟩ := paymentCredentialOrRaw_eq str otherUnspaced otherDecoded
  refine ⟨key, (sidecar_paymentCredentialHex address).trans strict, ?_⟩
  rw [key, otherKey, decoded, otherDecoded, Option.some.injEq]
  constructor
  · exact bytesHex_inj fits otherFits
  · intro same
    rw [same]

/-- A base address and another with the same payment part and another stake part. -/
private def baseAddress : List Char :=
  "addr_test1qr7zdn98e39kwqev8rkk545zxlxqtwnnuvwnw5vcllsw0atvg5rgp8086x0tndsejz8zqf68r6tla9fmxg62ga39s4sqjv80h4".toList

private def siblingAddress : List Char :=
  "addr_test1qr7zdn98e39kwqev8rkk545zxlxqtwnnuvwnw5vcllsw0atqs5jhdfp5xgaetl5hrerjwgywjqvmdwv768nemqqxg4kqmlc4tr".toList

def asciiLower : Lower := ⟨List.map Char.toLower, fun _ _ => rfl⟩

private theorem unspaced_of_any {text : List Char} (none : text.any isSpace = false) :
    ∀ char ∈ text, isSpace char = false :=
  fun char member => Bool.eq_false_iff.mpr (List.any_eq_false.mp none char member)

theorem sibling_credentials_agree :
    let credential := "fc26cca7cc4b67032c38ed6a568237cc05ba73e31d375198ffe0e7f5".toList
    paymentCredentialOrRaw asciiLower baseAddress = credential ∧
    Sidecar.paymentCredentialHex baseAddress = some credential ∧
    (paymentCredentialOrRaw asciiLower baseAddress = paymentCredentialOrRaw asciiLower siblingAddress ↔
      paymentCredential baseAddress = paymentCredential siblingAddress) :=
  credentials_agree asciiLower baseAddress siblingAddress _
    "fc26cca7cc4b67032c38ed6a568237cc05ba73e31d375198ffe0e7f5".toList (unspaced_of_any (by decide +kernel))
    (unspaced_of_any (by decide +kernel)) (by decide +kernel) (by decide +kernel)

/-! ## Script addresses by their text -/

/-- The first character after the separator holds the leading five bits of the header byte. -/
theorem header_div {first header : Nat} {groups bytes : List Nat}
    (fits : ∀ value ∈ first :: groups, value < 2 ^ 5)
    (regrouped : convertbits (first :: groups) 5 8 false = some (header :: bytes)) : header / 8 = first := by
  obtain ⟨bits, length, leading, fitsBytes⟩ := convertbits_spec (by omega) fits regrouped
  have first_eq := ofGroups_cons_div 5 first groups (List.forall_mem_cons.mp fits).2 (by omega)
  have header_eq := ofGroups_cons_div 8 header bytes (List.forall_mem_cons.mp fitsBytes).2 (by omega)
  have position : bits + 8 * bytes.length + 3 = 5 * groups.length := by
    simp only [List.length_cons] at length
    omega
  have shifts : 2 ^ bits * (2 ^ (8 * bytes.length) * 8) = 2 ^ (5 * groups.length) := by
    rw [← position, Nat.pow_add, Nat.pow_add, Nat.mul_assoc]
  calc header / 8 = ofGroups 5 (first :: groups) / 2 ^ bits / 2 ^ (8 * bytes.length) / 8 := by
        rw [← leading, header_eq]
    _ = ofGroups 5 (first :: groups) / 2 ^ (5 * groups.length) := by
        rw [Nat.div_div_eq_div_mul, Nat.div_div_eq_div_mul, shifts]
    _ = first := first_eq

theorem charset_script_iff : ∀ char ∈ charset,
    char ∈ ['w', 'z', 'x', '2'] ↔ charset.idxOf char ∈ [2 * 7, 2 * 1, 2 * 3, 2 * 5] := by
  have every : charset.all fun char =>
      decide (char ∈ ['w', 'z', 'x', '2'] ↔ charset.idxOf char ∈ [2 * 7, 2 * 1, 2 * 3, 2 * 5]) := by decide
  intro char known
  exact of_decide_eq_true (List.all_eq_true.mp every char known)

/-- What the prefixes ask of an address of one of the two kinds. -/
theorem any_prefix_iff {char : Char} (shelley : hrp = "addr".toList ∨ hrp = "addr_test".toList) :
    scriptAddressPrefixes.any (·.isPrefixOf (hrp ++ '1' :: char :: text)) = true ↔ char ∈ ['w', 'z', 'x', '2'] := by
  have prefixes : scriptAddressPrefixes =
      ['w', 'z', 'x', '2'].map (fun last => ['a', 'd', 'd', 'r', '1', last]) ++
      ['w', 'z', 'x', '2'].map (fun last => ['a', 'd', 'd', 'r', '_', 't', 'e', 's', 't', '1', last]) := by
    decide
  have main : "addr".toList = ['a', 'd', 'd', 'r'] := by decide
  have test : "addr_test".toList = ['a', 'd', 'd', 'r', '_', 't', 'e', 's', 't'] := by decide
  rw [prefixes]
  rcases shelley with rfl | rfl
  · rw [main]
    simp [@eq_comm _ char]
  · rw [test]
    simp [@eq_comm _ char]

/-- An address that decodes, with one of the two prefixes and network ids, is recognised as a
script address exactly if its header has a script as the payment part. -/
theorem isScriptAddress_iff (str : Lower) (address hrp : List Char) (data bytes : List Nat) (header : Nat)
    (decoded : bech32Decode address = some (hrp, data))
    (shelley : hrp = "addr".toList ∨ hrp = "addr_test".toList)
    (regrouped : convertbits data 5 8 false = some (header :: bytes))
    (network : header &&& 0x0F = 0 ∨ header &&& 0x0F = 1) :
    isScriptAddress str address = true ↔ header >>> 4 ∈ [1, 3, 5, 7] := by
  obtain ⟨pos, found, ascii, hrp_eq, long, known, shape⟩ := of_bech32Decode decoded
  have below : ∀ value ∈ data, value < 2 ^ 5 := by
    intro value member
    rw [shape] at member
    obtain ⟨char, inside, rfl⟩ := List.mem_map.mp member
    exact idxOf_lt (known char (List.mem_of_mem_take inside))
  have lowered : str.lower address = hrp ++ '1' :: (address.drop (pos + 1)).map Char.toLower := by
    rw [str.ascii address ascii]
    conv_lhs => rw [rfind_split found]
    rw [hrp_eq, List.map_append, List.map_take]
    rfl
  have nonempty : address ≠ [] := by
    rintro rfl
    cases found
  cases part : (address.drop (pos + 1)).map Char.toLower with
  | nil =>
    have none : data = [] := by simpa [part] using shape
    rw [none] at regrouped
    cases regrouped
  | cons char rest =>
    rw [part] at known lowered shape
    cases data with
    | nil => cases regrouped
    | cons first groups =>
      have first_eq : first = charset.idxOf char := by
        cases count : (address.drop (pos + 1)).length - checksumLen with
        | zero =>
          rw [count] at shape
          cases shape
        | succ more =>
          rw [count] at shape
          exact (List.cons.inj shape).1
      have leading : header / 8 = charset.idxOf char := (header_div below regrouped).trans first_eq
      rw [isScriptAddress, if_neg nonempty, lowered, any_prefix_iff shelley,
        charset_script_iff char (known char List.mem_cons_self), ← leading]
      have low : header % 16 = 0 ∨ header % 16 = 1 := by
        have mask : header &&& 0x0F = header % 2 ^ 4 := Nat.and_two_pow_sub_one_eq_mod header 4
        rwa [mask] at network
      have high : header >>> 4 = header / 16 := Nat.shiftRight_eq_div_pow header 4
      rw [high]
      simp only [List.mem_cons, List.not_mem_nil, or_false]
      omega

private def scriptAddress : List Char := "addr1wxn9efv2f6w82hagxqtn62ju4m293tqvw0uhmdl64ch8uwc0h43gt".toList

private def scriptData : List Nat := ((scriptAddress.drop 5).take 47).map (charset.idxOf ·)

private def scriptBytes : List Nat := ((convertbits scriptData 5 8 false).getD []).tail

theorem scriptAddress_is_script : isScriptAddress asciiLower scriptAddress = true ↔ 0x71 >>> 4 ∈ [1, 3, 5, 7] :=
  isScriptAddress_iff asciiLower scriptAddress "addr".toList scriptData scriptBytes 0x71 (by decide +kernel)
    (Or.inl rfl) (by decide +kernel) (Or.inr rfl)

end

end TransactionMonitoring.Bech32
