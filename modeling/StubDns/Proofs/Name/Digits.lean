import StubDns.Name.Encode

/-! Octets as labels of a name. The scratch bytes that they are put together in leave no trace. -/
namespace StubDns.Name

variable {capacity : Nat} {n : UInt8}

/-- An octet in decimal digits. -/
def decimalLabel (octet : UInt8) : Bytes :=
  (Nat.toDigits 10 octet.toNat).map fun digit => UInt8.ofNat digit.toNat

/-- The labels of the name that is asked for the host name of `address`. -/
def reverseLabels (address : IPv4) : List Bytes :=
  address.octets.reverse.map decimalLabel ++ reverseZone

theorem length_decimalLabel (octet : UInt8) :
    1 ≤ (decimalLabel octet).length ∧ (decimalLabel octet).length ≤ 3 := by
  have hlt := octet.toNat_lt
  rw [decimalLabel, List.length_map]
  constructor
  · exact Nat.length_toDigits_pos
  · exact (Nat.length_toDigits_le_iff (by decide) (by decide)).mpr (by omega)

theorem toNat_div_ten (n : UInt8) : (n / 10).toNat = n.toNat / 10 := UInt8.toNat_div n 10

theorem ofNat_digitChar (n : UInt8) :
    UInt8.ofNat (Nat.digitChar (n.toNat % 10)).toNat = 48 + n % 10 := by
  rw [Nat.toNat_digitChar_of_lt_ten (by omega)]
  apply UInt8.toNat_inj.mp
  rw [UInt8.toNat_ofNat', UInt8.toNat_add, UInt8.toNat_mod]
  rfl

/-- The last digit of an octet, behind those of its tens if it has any. -/
theorem decimalLabel_eq (n : UInt8) : decimalLabel n =
    (if n / 10 = 0 then [] else decimalLabel (n / 10)) ++ [48 + n % 10] := by
  have htens : n / 10 = 0 ↔ n.toNat < 10 := by
    rw [← UInt8.toNat_inj, toNat_div_ten, UInt8.toNat_zero]
    omega
  have hdigit := ofNat_digitChar n
  by_cases hlt : n.toNat < 10
  · rw [Nat.mod_eq_of_lt hlt] at hdigit
    rw [if_pos (htens.mpr hlt), decimalLabel, Nat.toDigits_of_lt_base hlt, List.map_singleton,
      hdigit, List.nil_append]
  · rw [if_neg (mt htens.mp hlt), decimalLabel, decimalLabel,
      Nat.toDigits_of_base_le (by decide) (Nat.le_of_not_lt hlt), List.map_append,
      List.map_singleton, hdigit, toNat_div_ten]

theorem drop_overwrite_singleton {digits : Buffer 3} {start : Nat} (h : start < 3) (byte : UInt8) :
    (digits.overwrite start [byte]).bytes.drop start = byte :: digits.bytes.drop (start + 1) := by
  have hlength : (digits.bytes.take start).length = start := by
    rw [List.length_take, digits.length_bytes]
    omega
  rw [Buffer.bytes_overwrite (by exact h), List.append_assoc, List.drop_left' hlength]
  rfl

/-- Where there is place for all digits, they end up before `start`, whatever was there. -/
theorem drop_putDigits {start : Nat} (digits : Buffer 3)
    (hplace : (decimalLabel n).length ≤ start + 1) (hstart : start < 3) :
    (putDigits n (start + 1) digits).2.bytes.drop (putDigits n (start + 1) digits).1 =
      decimalLabel n ++ digits.bytes.drop (start + 1) := by
  induction start generalizing n digits with
  | zero =>
    have htens : n / 10 = 0 := by
      apply Decidable.of_not_not
      intro hmore
      have hpos := (length_decimalLabel (n / 10)).1
      rw [decimalLabel_eq, if_neg hmore, List.length_append, List.length_singleton] at hplace
      omega
    rw [decimalLabel_eq, if_pos htens, putDigits, if_pos htens, drop_overwrite_singleton hstart]
    rfl
  | succ start ih =>
    rw [decimalLabel_eq] at hplace ⊢
    rw [putDigits]
    by_cases htens : n / 10 = 0
    · rw [if_pos htens, if_pos htens, drop_overwrite_singleton hstart]
      rfl
    · rw [if_neg htens, List.length_append, List.length_singleton] at hplace
      rw [if_neg htens, if_neg htens, ih _ (by omega) (by omega), drop_overwrite_singleton hstart,
        List.append_assoc]
      rfl

/-- What earlier octets have left in the scratch bytes is not seen in the label. -/
theorem decimal_label (octet : UInt8) (digits : Buffer 3) :
    (decimal octet digits).1 = decimalLabel octet := by
  have hdigits := drop_putDigits digits (length_decimalLabel octet).2 (by decide)
  rw [List.drop_of_length_le (Nat.le_of_eq digits.length_bytes), List.append_nil] at hdigits
  exact hdigits

theorem putOctets_eq (encoded : Nat) (octets : List UInt8) (digits : Buffer 3) :
    (putOctets encoded octets digits : Writing capacity Nat) =
      putLabels encoded (octets.map decimalLabel ++ reverseZone) := by
  induction octets generalizing encoded digits with
  | nil => rfl
  | cons octet octets ih =>
    rw [putOctets, List.map_cons, List.cons_append, putLabels]
    dsimp only
    rw [decimal_label]
    congr
    funext done
    exact ih _ _

/-- The name is written label by label as any other one. -/
theorem putReverse_eq_putLabels (address : IPv4) :
    (putReverse address : Writing capacity Nat) = putLabels 0 (reverseLabels address) :=
  putOctets_eq 0 address.octets.reverse (Buffer.zero 3)

end StubDns.Name
