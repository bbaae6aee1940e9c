import Mathlib.Data.List.Forall2
import StubDns.Proofs.Echo
import StubDns.Registry

/-! The networks of configured links. They are read twice, once to validate them and once to attach
them, and by different rules: what passes the first reading means the same in the second. -/
namespace StubDns

variable {text front bits digits : List Char} {bound bound' n : Nat} {address : IPv4}
  {link : LinkSettings}

theorem decimal?_eq_some_iff : decimal? bound digits = some n ↔
    (digits ≠ [] ∧ digits.all (isDigit 10)) ∧ digitsValue 10 digits = n ∧ n < bound := by
  unfold decimal?
  by_cases h : digits ≠ [] ∧ digits.all (isDigit 10)
  · rw [if_pos h, Option.filter_eq_some_iff, Option.some.injEq]
    constructor
    · rintro ⟨rfl, hlt⟩
      exact ⟨h, rfl, of_decide_eq_true hlt⟩
    · rintro ⟨-, rfl, hlt⟩
      exact ⟨rfl, decide_eq_true hlt⟩
  · rw [if_neg h]
    constructor
    · intro hnone
      cases hnone
    · intro hsome
      exact absurd hsome.1 h

/-- A number has the same value under any bound that it keeps. -/
theorem unsigned?_of_le (h : unsigned? bound text = some n) (hle : bound ≤ bound') :
    unsigned? bound' text = some n := by
  unfold unsigned? at h ⊢
  split at h <;>
  · obtain ⟨hdigits, hvalue, hlt⟩ := decimal?_eq_some_iff.mp h
    exact decimal?_eq_some_iff.mpr ⟨hdigits, hvalue, Nat.lt_of_lt_of_le hlt hle⟩

theorem unsigned?_lt (h : unsigned? bound text = some n) : n < bound := by
  unfold unsigned? at h
  split at h <;> exact (decimal?_eq_some_iff.mp h).2.2

theorem digit_of_unsigned? (h : unsigned? bound text = some n) {c : Char} (hc : c ∈ text) :
    c = '+' ∨ isDigit 10 c = true := by
  unfold unsigned? at h
  split at h
  · rcases List.mem_cons.mp hc with rfl | hc
    · exact .inl rfl
    · exact .inr (List.all_eq_true.mp (decimal?_eq_some_iff.mp h).1.2 c hc)
  · exact .inr (List.all_eq_true.mp (decimal?_eq_some_iff.mp h).1.2 c hc)

namespace IPv4

theorem rest_of_readOctet {octet : UInt8} {rest : List Char}
    (h : readOctet text = some (octet, rest)) : rest = text.dropWhile (isDigit 10) := by
  unfold readOctet at h
  dsimp only at h
  split at h
  · cases h
  · split at h
    · cases h
    · exact (Prod.mk.inj (Option.some.inj h)).2.symm

theorem dot_of_readDotOctet {octet : UInt8} {rest : List Char}
    (h : readDotOctet text = some (octet, rest)) : '.' ∈ text := by
  unfold readDotOctet at h
  split at h
  · exact List.mem_cons_self
  · cases h

/-- An address is written with dots. -/
theorem dot_of_parse? (h : parse? text = some address) : '.' ∈ text := by
  obtain ⟨rest, hread⟩ : ∃ rest, read text = some (address, rest) := by
    unfold parse? at h
    split at h
    · next found hread =>
      obtain rfl := Option.some.inj h
      exact ⟨_, hread⟩
    · cases h
  simp only [read, Option.bind_eq_bind, Option.bind_eq_some_iff, Prod.exists] at hread
  obtain ⟨a, after, hoctet, b, rest, hdot, -⟩ := hread
  have hmem : '.' ∈ after := dot_of_readDotOctet hdot
  rw [rest_of_readOctet hoctet] at hmem
  exact (List.dropWhile_sublist _).subset hmem

/-- No number is an address. -/
theorem parse?_of_unsigned? (h : unsigned? bound text = some n) : parse? text = none := by
  cases hparse : parse? text with
  | none => rfl
  | some address =>
    rcases digit_of_unsigned? h (dot_of_parse? hparse) with hdot | hdot <;> cases hdot

end IPv4

theorem takeWhile_slash (hfront : '/' ∉ front) :
    (front ++ '/' :: bits).takeWhile (· ≠ '/') = front ∧
      (front ++ '/' :: bits).dropWhile (· ≠ '/') = '/' :: bits := by
  have hall : ∀ c ∈ front, decide (c ≠ '/') = true := by
    intro c hc
    exact decide_eq_true (ne_of_mem_of_not_mem hc hfront)
  rw [List.takeWhile_append_of_pos hall, List.dropWhile_append_of_pos hall]
  exact ⟨List.append_nil front, rfl⟩

/-- An address, a slash and a prefix are read as the network that they name. -/
theorem Subnet.parse_slash {length : Fin 33} (hfront : '/' ∉ front) (hbits : '/' ∉ bits)
    (haddress : IPv4.parse? front = some address) (hlength : prefixLength? bits = some length) :
    Subnet.parse (front ++ '/' :: bits) =
      .ok ⟨address, length.val, Nat.le_of_lt_succ length.isLt⟩ := by
  obtain ⟨htake, hdrop⟩ := @takeWhile_slash front bits hfront
  unfold parse
  simp only [htake, hdrop, Option.any_some, hbits, decide_false, haddress, hlength]
  rfl

theorem Subnet.prefixLength?_of_unsigned? (h : unsigned? 33 bits = some n) :
    ∃ hn : n < 33, Subnet.prefixLength? bits = some ⟨n, hn⟩ := by
  refine ⟨unsigned?_lt h, ?_⟩
  rw [prefixLength?, IPv4.parse?_of_unsigned? h, unsigned?_of_le h (by decide)]
  simp [unsigned?_lt h]

theorem throw_last_ok_iff {ε : Type} {c : Prop} [Decidable c] {reason : ε} :
    (if c then throw reason else pure () : Except ε Unit) = .ok () ↔ ¬ c := by
  by_cases h : c
  · rw [if_pos h]
    exact ⟨nofun, fun hc => absurd h hc⟩
  · rw [if_neg h]
    exact ⟨fun _ => h, fun _ => rfl⟩

theorem forM_ok_iff {ε α : Type} {check : α → Except ε Unit} {items : List α} :
    items.forM check = .ok () ↔ ∀ item ∈ items, check item = .ok () := by
  induction items with
  | nil => exact ⟨fun _ => nofun, fun _ => rfl⟩
  | cons item items ih =>
    have hcons : (item :: items).forM check = check item >>= fun _ => items.forM check := rfl
    rw [hcons, except_bind_ok_iff, List.forall_mem_cons, ← ih]
    exact ⟨fun ⟨_, hitem, hitems⟩ => ⟨hitem, hitems⟩, fun ⟨hitem, hitems⟩ => ⟨(), hitem, hitems⟩⟩

namespace LinkSettings

/-- What a link is validated for is an address, a slash and a number of bits. -/
theorem cidr?_eq_some (h : link.cidr? = some (address, n)) :
    ∃ front bits, link.network.toList = front ++ '/' :: bits ∧ '/' ∉ front ∧
      IPv4.parse? front = some address ∧ unsigned? 33 bits = some n := by
  unfold cidr? at h
  dsimp only at h
  split at h
  · cases h
  · next slash bits hdrop =>
    obtain rfl : slash = '/' := by
      have hhead := List.head?_dropWhile_not (· ≠ '/') link.network.toList
      rw [hdrop] at hhead
      simpa using hhead
    simp only [Option.bind_eq_bind, Option.bind_eq_some_iff, Option.pure_def, Option.some.injEq,
      Prod.mk.injEq] at h
    obtain ⟨_, hparse, _, hbits, rfl, rfl⟩ := h
    refine ⟨_, bits, ?_, ?_, hparse, hbits⟩
    · rw [← hdrop]
      exact List.takeWhile_append_dropWhile.symm
    · intro hmem
      have hother := List.all_eq_true.mp List.all_takeWhile '/' hmem
      exact of_decide_eq_true hother rfl

/-- Both readings of a network give the same. -/
theorem parse_of_cidr? (h : link.cidr? = some (address, n)) :
    ∃ hn : n ≤ 32, Subnet.parse link.network.toList = .ok ⟨address, n, hn⟩ := by
  obtain ⟨front, bits, htext, hfront, hparse, hbits⟩ := cidr?_eq_some h
  have hplain : '/' ∉ bits := by
    intro hmem
    rcases digit_of_unsigned? hbits hmem with hslash | hslash <;> cases hslash
  obtain ⟨hn, hlength⟩ := Subnet.prefixLength?_of_unsigned? hbits
  refine ⟨Nat.lt_succ_iff.mp hn, ?_⟩
  rw [htext]
  exact Subnet.parse_slash hfront hplain hparse hlength

theorem validate_ok_iff :
    link.validate = .ok () ↔ (∃ address n, link.cidr? = some (address, n)) ∧ link.scopeId ≠ 0 := by
  simp only [validate, throw_if_ok_iff, throw_last_ok_iff]
  refine and_congr ?_ Iff.rfl
  cases hcidr : link.cidr? with
  | none => simp
  | some read => exact ⟨fun _ => ⟨read.1, read.2, rfl⟩, fun _ => nofun⟩

/-- The link that is attached is the one that is configured. -/
structure Attaches (link : LinkSettings) (attached : Link) : Prop where
  network : link.cidr? = some (attached.network.address, attached.network.prefixLen)
  scopeId : attached.scopeId = link.scopeId
  scopeId_ne_zero : attached.scopeId ≠ 0

end LinkSettings

/-- Links that pass validation can all be attached. -/
theorem Registry.addLinks_of_valid {links : List LinkSettings}
    (hvalid : ∀ link ∈ links, link.validate = .ok ()) (registry : Registry) :
    ∃ attached, registry.addLinks links =
        .ok { registry with links := registry.links ++ attached } ∧
      List.Forall₂ LinkSettings.Attaches links attached := by
  induction links generalizing registry with
  | nil =>
    refine ⟨[], ?_, .nil⟩
    rw [addLinks, List.append_nil]
  | cons link links ih =>
    obtain ⟨hlink, hlinks⟩ := List.forall_mem_cons.mp hvalid
    obtain ⟨⟨address, n, hcidr⟩, hscope⟩ := LinkSettings.validate_ok_iff.mp hlink
    obtain ⟨hn, hparse⟩ := LinkSettings.parse_of_cidr? hcidr
    let first : Link := ⟨⟨address, n, hn⟩, link.scopeId⟩
    have hfirst : link.Attaches first := ⟨hcidr, rfl, hscope⟩
    obtain ⟨attached, hattached, hall⟩ := ih hlinks (registry.withLink first)
    refine ⟨first :: attached, ?_, .cons hfirst hall⟩
    rw [addLinks, hparse]
    dsimp only
    rw [hattached, withLink, List.append_assoc]
    rfl

/-- The bounds that settings have to keep. -/
theorem Settings.validate_ok_iff {settings : Settings} :
    settings.validate = .ok () ↔ settings.port ≠ 0 ∧
      (1 ≤ settings.attempts.toNat ∧ settings.attempts.toNat ≤ maxAttempts) ∧
      settings.minWaitMs ≠ 0 ∧
      (∀ text, settings.search = some text → text ≠ "" ∧ text.utf8ByteSize ≤ suffixMax) ∧
      ∀ link ∈ settings.links, link.validate = .ok () := by
  simp only [validate, throw_if_ok_iff]
  refine and_congr Iff.rfl (and_congr ?_ (and_congr Iff.rfl ?_))
  · omega
  · cases settings.search with
    | none => exact ⟨fun h => ⟨nofun, forM_ok_iff.mp h⟩, fun h => forM_ok_iff.mpr h.2⟩
    | some text =>
      simp only [throw_if_ok_iff, forM_ok_iff, Option.some.injEq, forall_eq', not_or, Nat.not_lt,
        ne_eq]

end StubDns
