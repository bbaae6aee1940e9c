import Mathlib.Data.List.Basic
import StubDns.Address.IPv4
import StubDns.Text

/-! Numbers in decimal digits, each of which can be written in one way only, and addresses that are
read back from their text. -/
namespace StubDns

/-- `digits` is `number` in decimal: one digit or more, and no zero in front of others. -/
structure IsDecimal (number : Nat) (digits : List Char) : Prop where
  ne_nil : digits ≠ []
  digit : ∀ c ∈ digits, '0' ≤ c ∧ c ≤ '9'
  head : digits.head? = some '0' → digits = ['0']
  value : digits.foldl (fun value c => value * 10 + (c.toNat - '0'.toNat)) 0 = number

variable {n : Nat} {c : Char} {digits rest text : List Char} {octet : UInt8}

theorem toNat_digit (h : '0' ≤ c ∧ c ≤ '9') : 48 ≤ c.toNat ∧ c.toNat ≤ 57 := h

theorem digit_of_mem_toDigits (h : c ∈ Nat.toDigits 10 n) : '0' ≤ c ∧ c ≤ '9' := by
  have hdigit := Nat.isDigit_of_mem_toDigits (by decide) (by decide) h
  rw [Char.isDigit, Bool.and_eq_true, decide_eq_true_eq, decide_eq_true_eq] at hdigit
  exact hdigit

theorem digitChar_digit (h : '0' ≤ c ∧ c ≤ '9') : Nat.digitChar (c.toNat - '0'.toNat) = c := by
  have hrange := toNat_digit h
  have hzero : '0'.toNat = 48 := rfl
  apply Char.toNat_inj.mp
  rw [Nat.toNat_digitChar_of_lt_ten (by omega)]
  omega

/-- Digits behind a number that is not zero spell the number that they make of it. -/
theorem toDigits_append (hpos : 0 < n) (hdigits : ∀ c ∈ digits, '0' ≤ c ∧ c ≤ '9') :
    Nat.toDigits 10 n ++ digits = Nat.toDigits 10
      (digits.foldl (fun value c => value * 10 + (c.toNat - '0'.toNat)) n) := by
  induction digits generalizing n with
  | nil => exact List.append_nil _
  | cons c digits ih =>
    obtain ⟨hc, hdigits⟩ := List.forall_mem_cons.mp hdigits
    have hrange := toNat_digit hc
    have hzero : '0'.toNat = 48 := rfl
    have hlt : c.toNat - '0'.toNat < 10 := by omega
    have hone : Nat.toDigits 10 n ++ [c] = Nat.toDigits 10 (n * 10 + (c.toNat - '0'.toNat)) := by
      have happend := Nat.toDigits_append_toDigits (by decide) hpos hlt
      rwa [Nat.toDigits_of_lt_base hlt, digitChar_digit hc, Nat.mul_comm] at happend
    rw [List.foldl_cons, ← ih (by omega) hdigits, ← hone, List.append_assoc, List.singleton_append]

theorem head?_toDigits (h : (Nat.toDigits 10 n).head? = some '0') : n = 0 := by
  -- what is left without the last digit starts with the same digit, and is a smaller number
  induction n using Nat.strongRecOn with
  | ind n ih =>
    by_cases hlt : n < 10
    · rw [Nat.toDigits_of_lt_base hlt] at h
      have hdigit := congrArg Char.toNat (Option.some.inj h)
      rw [Nat.toNat_digitChar_of_lt_ten hlt] at hdigit
      have hzero : '0'.toNat = 48 := rfl
      omega
    · rw [Nat.toDigits_of_base_le (by decide) (Nat.le_of_not_lt hlt),
        List.head?_append_of_ne_nil _ Nat.toDigits_ne_nil] at h
      have hfront := ih (n / 10) (by omega) h
      omega

theorem isDecimal_toDigits (n : Nat) : IsDecimal n (Nat.toDigits 10 n) where
  ne_nil := Nat.toDigits_ne_nil
  digit _ := digit_of_mem_toDigits
  head h := by
    rw [head?_toDigits h]
    rfl
  value := by
    have hvalue : Nat.ofDigitChars 10 (Nat.toDigits 10 n) 0 = n := Nat.ofDigitChars_ten_toDigits
    simpa only [Nat.ofDigitChars, Nat.mul_comm 10] using hvalue

/-- A number is written in decimal in just one way. -/
theorem isDecimal_iff : IsDecimal n digits ↔ digits = Nat.toDigits 10 n := by
  constructor
  · rintro ⟨hsome, hdigits, hhead, rfl⟩
    obtain ⟨c, more, rfl⟩ := List.exists_cons_of_ne_nil hsome
    obtain ⟨hc, hmore⟩ := List.forall_mem_cons.mp hdigits
    by_cases hzero : c = '0'
    · subst hzero
      rw [hhead rfl]
      rfl
    · have hrange := toNat_digit hc
      have hnot : c.toNat ≠ 48 := by
        intro h
        exact hzero (Char.toNat_inj.mp h)
      have hvalue : '0'.toNat = 48 := rfl
      have hpos : 0 < c.toNat - '0'.toNat := by omega
      have hlt : c.toNat - '0'.toNat < 10 := by omega
      have happend := toDigits_append hpos hmore
      rw [Nat.toDigits_of_lt_base hlt, digitChar_digit hc, List.singleton_append] at happend
      rw [List.foldl_cons, Nat.zero_mul, Nat.zero_add]
      exact happend
  · rintro rfl
    exact isDecimal_toDigits n

theorem digit?_ten (h : '0' ≤ c ∧ c ≤ '9') : digit? 10 c = some (c.toNat - '0'.toNat) := by
  have hrange := toNat_digit h
  have hzero : '0'.toNat = 48 := rfl
  have hlt : c.toNat - '0'.toNat < 10 := by omega
  simp only [digit?, if_pos h, Option.filter_some, decide_eq_true hlt, if_true]

theorem digitsValue_toDigits (n : Nat) : digitsValue 10 (Nat.toDigits 10 n) = n := by
  refine Eq.trans ?_ (isDecimal_toDigits n).value
  apply List.foldl_ext
  intro value c hc
  rw [digit?_ten (digit_of_mem_toDigits hc)]
  rfl

namespace IPv4
variable {address : IPv4}

/-- An octet in decimal is read as that octet, up to anything that is no digit. -/
theorem readOctet_toDigits (octet : UInt8) (h : rest.takeWhile (isDigit 10) = []) :
    readOctet (Nat.toDigits 10 octet.toNat ++ rest) = some (octet, rest) := by
  have hlt := octet.toNat_lt
  have hall : ∀ c ∈ Nat.toDigits 10 octet.toNat, isDigit 10 c = true := by
    intro c hc
    rw [isDigit, digit?_ten (digit_of_mem_toDigits hc)]
    rfl
  have htake : (Nat.toDigits 10 octet.toNat ++ rest).takeWhile (isDigit 10) =
      Nat.toDigits 10 octet.toNat := by
    rw [List.takeWhile_append_of_pos hall, h, List.append_nil]
  have hdrop : (Nat.toDigits 10 octet.toNat ++ rest).dropWhile (isDigit 10) = rest := by
    have hsplit := List.takeWhile_append_dropWhile (p := isDigit 10)
      (l := Nat.toDigits 10 octet.toNat ++ rest)
    rw [htake] at hsplit
    exact List.append_cancel_left hsplit
  have hlength : (Nat.toDigits 10 octet.toNat).length ≤ 3 :=
    (Nat.length_toDigits_le_iff (by decide) (by decide)).mpr (by omega)
  have hfits : ¬ (Nat.toDigits 10 octet.toNat = [] ∨ 3 < (Nat.toDigits 10 octet.toNat).length ∨
      255 < octet.toNat) := by
    rintro (hnil | hlong | hlarge)
    · exact Nat.toDigits_ne_nil hnil
    · omega
    · omega
  have hplain : ¬ ((Nat.toDigits 10 octet.toNat).head? = some '0' ∧
      Nat.toDigits 10 octet.toNat ≠ ['0']) := by
    rintro ⟨hhead, hmore⟩
    exact hmore ((isDecimal_toDigits _).head hhead)
  simp only [readOctet, htake, hdrop, digitsValue_toDigits, if_neg hfits, if_neg hplain,
    UInt8.ofNat_toNat]

theorem toList_text (address : IPv4) : address.text.toList =
    Nat.toDigits 10 address.a.toNat ++ '.' :: (Nat.toDigits 10 address.b.toNat ++ '.' ::
      (Nat.toDigits 10 address.c.toNat ++ '.' :: Nat.toDigits 10 address.d.toNat)) := by
  have hdot : (toString ".").toList = ['.'] := rfl
  simp [text, hdot]

/-- An address is read back from its text, up to anything that is no digit. -/
theorem read_text (address : IPv4) (h : rest.takeWhile (isDigit 10) = []) :
    read (address.text.toList ++ rest) = some (address, rest) := by
  have hdot (more : List Char) : ('.' :: more).takeWhile (isDigit 10) = [] := rfl
  rw [toList_text]
  simp only [read, readDotOctet, List.append_assoc, List.cons_append, readOctet_toDigits _ h,
    readOctet_toDigits _ (hdot _), Option.bind_eq_bind, Option.bind_some]
  rfl

end IPv4

namespace Utf8

/-- ASCII text is encoded in one byte for each character. -/
theorem encode_eq_map (h : ∀ c ∈ text, c.toNat < 128) :
    encode text = text.map fun c => UInt8.ofNat c.toNat := by
  induction text with
  | nil => rfl
  | cons c text ih =>
    obtain ⟨hc, htext⟩ := List.forall_mem_cons.mp h
    have hsize : c.utf8Size = 1 := by
      apply Char.utf8Size_eq_one_iff.mpr
      exact Nat.le_of_lt_succ hc
    have hbyte : String.utf8EncodeChar c = [UInt8.ofNat c.toNat] :=
      String.utf8EncodeChar_eq_singleton hsize
    have hcons : encode (c :: text) = String.utf8EncodeChar c ++ encode text := List.flatMap_cons
    rw [hcons, hbyte, ih htext]
    rfl

theorem decode?_encode (h : ∀ c ∈ text, c.toNat < 128) : decode? (encode text) = some text := by
  have hunits : units (encode text) = text.map some := by
    rw [encode_eq_map h]
    induction text with
    | nil => rw [List.map_nil, units, List.map_nil]
    | cons c text ih =>
      obtain ⟨hc, htext⟩ := List.forall_mem_cons.mp h
      have hbyte : (UInt8.ofNat c.toNat).toNat = c.toNat := by
        rw [UInt8.toNat_ofNat']
        omega
      rw [List.map_cons, units, hbyte, if_pos hc, Char.ofNat_toNat, ih htext, List.map_cons]
  have hall : (text.map some).mapM id = text.mapM fun c => (pure c : Option Char) := List.mapM_map
  rw [decode?, hunits, hall, List.mapM_pure, List.map_id']
  rfl

end Utf8
end StubDns
