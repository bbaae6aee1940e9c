import StubDns.Proofs.Name.RoundTrip
import StubDns.Proofs.Name.Walk

/-! The number of pointers a name can need. Where no pointer leads to another one, each but the first
stands behind a label of its own, and 253 bytes of text hold at most 127 labels. -/
namespace StubDns.Name

/-- No pointer on the way from `start` leads to another pointer. -/
def Direct (message : Bytes) (start : Nat) : Prop :=
  ∀ labels hops place high low byte, Leads message start labels hops place →
    192 ≤ high.toNat → message.HoldsAt place [high, low] →
      message[target high low]? = some byte → byte.toNat < 192

variable {message : Bytes} {labels : List Bytes} {start middle stop hops : Nat}

theorem Direct.of_leads (h : Direct message start) (hleads : Leads message start labels hops middle) :
    Direct message middle := by
  intro more further place high low byte hmore
  exact h _ _ place high low byte (hleads.append hmore)

/-- A pointer is taken at the start or behind a label, and only once there. -/
theorem Leads.hops_le (h : Leads message start labels hops stop) (hdirect : Direct message start) :
    hops ≤ labels.length + 1 ∧
      (∀ byte, message[start]? = some byte → byte.toNat < 192 → hops ≤ labels.length) := by
  -- a label makes room for one more pointer behind it, and a pointer uses that room up
  induction h with
  | here => exact ⟨Nat.zero_le _, fun _ _ _ => Nat.zero_le _⟩
  | label hpos hlt hlen hheld _ ih =>
    obtain ⟨hle, _⟩ := ih (hdirect.of_leads (.label hpos hlt hlen hheld .here))
    exact ⟨Nat.le_succ_of_le hle, fun _ _ _ => hle⟩
  | @pointer position stop high low labels hops hhigh hheld htarget _ ih =>
    have hbehind := (ih (hdirect.of_leads (.pointer hhigh hheld htarget .here))).2
    obtain ⟨byte, hbyte⟩ : ∃ byte, message[target high low]? = some byte :=
      ⟨_, List.getElem?_eq_getElem htarget⟩
    have hplain : byte.toNat < 192 := hdirect _ _ _ _ _ _ .here hhigh hheld hbyte
    have hle := hbehind byte hbyte hplain
    refine ⟨Nat.succ_le_succ hle, ?_⟩
    intro first hfirst hlt
    obtain rfl := hheld.byte_eq hfirst
    omega

/-- A name that is no longer than names may be is decoded even if every label of it stands behind a
pointer, and another pointer in front of all of them. -/
theorem copy_of_direct (hleads : Leads message start labels hops stop)
    (hzero : message[stop]? = some 0) (hdirect : Direct message start) (hsome : labels ≠ [])
    (htext : (text labels).length ≤ 253) :
    hops ≤ 128 ∧ ∀ (capacity : Nat) (out : Buffer capacity),
      (256 ≤ capacity → (copy message start out).1 = .ok (text labels).length ∧
        (copy message start out).2.bytes.take (text labels).length = text labels) ∧
      (copy message start out).1 ≠ .error .tooManyPointers := by
  have hcharge := length_text hsome
  have hcount := hleads.two_mul_length_le
  obtain ⟨hmost, _⟩ := hleads.hops_le hdirect
  have hhops : hops ≤ 128 := by omega
  have hdenotes := hleads.denotes (.root (Bytes.getElem?_eq_some_iff.mp hzero))
  rw [List.append_nil, Nat.add_zero] at hdenotes
  have hlegible : Legible message start labels := ⟨hops, hdenotes, hsome, hhops, by omega⟩
  refine ⟨hhops, ?_⟩
  intro capacity out
  refine ⟨fun h => copy_of_legible h hlegible out, ?_⟩
  by_cases hsmall : capacity < 256
  · rw [copy_of_lt hsmall]
    exact nofun
  · rw [(copy_of_legible (Nat.le_of_not_lt hsmall) hlegible out).1]
    exact nofun

theorem leads_pointerTo {target : Nat} (hlt : target < 0x4000)
    (hheld : message.HoldsAt start (pointerTo target)) (htarget : target < message.length) :
    Leads message start [] 1 target := by
  obtain ⟨high, low, heq, hhigh, rfl⟩ := pointerTo_eq hlt
  rw [heq] at hheld
  exact .pointer hhigh hheld htarget .here

theorem target_eq_of_holdsAt {target place : Nat} {high low : UInt8}
    (h : message.HoldsAt place [high, low]) (h' : message.HoldsAt place (pointerTo target))
    (hlt : target < 0x4000) : Name.target high low = target := by
  obtain ⟨other, more, heq, _, rfl⟩ := pointerTo_eq hlt
  rw [heq] at h'
  cases h.unique h' rfl
  rfl

/-- The label `a` and a pointer to right behind it, where link `i + 1` has its place. -/
def link (i : Nat) : Bytes := [1, 97] ++ pointerTo (4 * i + 6)

def links (count : Nat) : Bytes := (List.range count).flatMap link

/-- A pointer to the first of 127 links, with a zero byte behind the last one. -/
def chain : Bytes := pointerTo 2 ++ links 127 ++ [0]

theorem length_links (count : Nat) : (links count).length = 4 * count := by
  induction count with
  | zero => rfl
  | succ count ih =>
    rw [links, List.range_succ, List.flatMap_append, List.length_append, ← links, ih]
    rfl

theorem links_eq_append {i count : Nat} (h : i < count) :
    ∃ more, links count = links i ++ link i ++ more := by
  induction count with
  | zero => contradiction
  | succ count ih =>
    have hlast : links (count + 1) = links count ++ link count := by
      simp [links, List.range_succ]
    by_cases hi : i = count
    · subst hi
      exact ⟨[], by rw [hlast, List.append_nil]⟩
    · obtain ⟨more, hmore⟩ := ih (by omega)
      exact ⟨more ++ link count, by rw [hlast, hmore, List.append_assoc _ more]⟩

theorem length_chain : chain.length = 511 := by
  rw [chain, List.length_append, List.length_append, length_links]
  rfl

theorem holdsAt_chain_first : chain.HoldsAt 0 (pointerTo 2) :=
  Bytes.holdsAt_iff.mpr ⟨[], links 127 ++ [0], List.append_assoc .., rfl⟩

theorem holdsAt_chain {i : Nat} (h : i < 127) :
    chain.HoldsAt (4 * i + 2) [1, 97] ∧
      chain.HoldsAt (4 * (i + 1)) (pointerTo (4 * (i + 1) + 2)) := by
  obtain ⟨more, hmore⟩ := links_eq_append h
  have hlink : chain.HoldsAt (4 * i + 2) (link i) := by
    refine Bytes.holdsAt_iff.mpr ⟨pointerTo 2 ++ links i, more ++ [0], ?_, ?_⟩
    · simp only [chain, hmore, List.append_assoc]
    · rw [List.length_append, length_links, Nat.add_comm]
      rfl
  exact Bytes.holdsAt_append.mp hlink

theorem getElem?_chain_last : chain[510]? = some 0 := by
  have hfront : (pointerTo 2 ++ links 127).length = 510 := by
    rw [List.length_append, length_links]
    rfl
  rw [chain, List.getElem?_append_right (Nat.le_of_eq hfront), hfront]
  rfl

theorem leads_chain {left : Nat} (h : left ≤ 127) :
    Leads chain (4 * (127 - left) + 2) (List.replicate left [97]) left 510 := by
  induction left with
  | zero => exact .here
  | succ left ih =>
    have hlast : 127 - (left + 1) + 1 = 127 - left := by omega
    obtain ⟨hlabel, hpointer⟩ := holdsAt_chain (show 127 - (left + 1) < 127 by omega)
    rw [hlast] at hpointer
    have hinside : 4 * (127 - left) + 2 < chain.length := by
      rw [length_chain]
      omega
    have hrest := (leads_pointerTo (by omega) hpointer hinside).append (ih (by omega))
    rw [Nat.add_comm 1, ← hlast] at hrest
    exact @Leads.label _ _ _ 1 [97] _ _ (by decide) (by decide) rfl hlabel hrest

/-- A link, or the zero byte behind the last one, or a pointer to one of them. -/
def OnChain (place : Nat) : Prop :=
  ∃ i ≤ 127, place = 4 * i + 2 ∨ chain.HoldsAt place (pointerTo (4 * i + 2))

theorem getElem?_chain {i : Nat} (h : i ≤ 127) :
    ∃ byte, chain[4 * i + 2]? = some byte ∧ (byte = 1 ∧ i < 127 ∨ byte = 0) := by
  by_cases hlast : i = 127
  · subst hlast
    exact ⟨0, getElem?_chain_last, .inr rfl⟩
  · have hlt : i < 127 := by omega
    exact ⟨1, (Bytes.holdsAt_cons.mp (holdsAt_chain hlt).1).1, .inl ⟨rfl, hlt⟩⟩

theorem lt_of_getElem?_chain {i : Nat} {byte : UInt8} (h : i ≤ 127)
    (hbyte : chain[4 * i + 2]? = some byte) : byte.toNat < 192 := by
  obtain ⟨other, hother, hsmall⟩ := getElem?_chain h
  obtain rfl := Option.some.inj (hbyte.symm.trans hother)
  rcases hsmall with ⟨rfl, _⟩ | rfl <;> decide

theorem Leads.onChain {position : Nat} (h : Leads chain position labels hops stop)
    (hposition : OnChain position) : OnChain stop := by
  induction h with
  | here => exact hposition
  | @label position stop size label labels hops hpos hlt hlen hheld _ ih =>
    apply ih
    obtain ⟨i, hi, rfl | hpointer⟩ := hposition
    · obtain ⟨byte, hbyte, ⟨rfl, hlast⟩ | rfl⟩ := getElem?_chain hi
      · obtain rfl := hheld.byte_eq hbyte
        exact ⟨i + 1, hlast, .inr (holdsAt_chain hlast).2⟩
      · obtain rfl := hheld.byte_eq hbyte
        contradiction
    · obtain ⟨high, low, heq, hhigh, _⟩ := pointerTo_eq (show 4 * i + 2 < 0x4000 by omega)
      rw [heq] at hpointer
      obtain rfl := hheld.byte_eq (Bytes.holdsAt_cons.mp hpointer).1
      omega
  | @pointer position stop high low labels hops hhigh hheld _ _ ih =>
    apply ih
    obtain ⟨i, hi, rfl | hpointer⟩ := hposition
    · have hlow := lt_of_getElem?_chain hi (Bytes.holdsAt_cons.mp hheld).1
      omega
    · exact ⟨i, hi, .inl (target_eq_of_holdsAt hheld hpointer (by omega))⟩

theorem direct_chain : Direct chain 0 := by
  intro labels hops place high low byte hleads hhigh hheld hbyte
  have hstart : OnChain 0 := ⟨0, Nat.zero_le _, .inr holdsAt_chain_first⟩
  obtain ⟨i, hi, rfl | hpointer⟩ := hleads.onChain hstart
  · have hlow := lt_of_getElem?_chain hi (Bytes.holdsAt_cons.mp hheld).1
    omega
  · rw [target_eq_of_holdsAt hheld hpointer (by omega)] at hbyte
    exact lt_of_getElem?_chain hi hbyte

/-- The longest name with the most pointers: 253 bytes of text by way of 128 pointers. -/
theorem copy_chain :
    Leads chain 0 (List.replicate 127 [97]) 128 510 ∧ chain[510]? = some 0 ∧ Direct chain 0 ∧
      (text (List.replicate 127 [97])).length = 253 ∧
      (copy chain 0 (Buffer.zero 256)).1 = .ok 253 := by
  have hfirst : Leads chain 0 [] 1 2 :=
    leads_pointerTo (by omega) holdsAt_chain_first (by rw [length_chain]; omega)
  have hleads : Leads chain 0 (List.replicate 127 [97]) 128 510 :=
    hfirst.append (leads_chain (Nat.le_refl 127))
  have hzero := getElem?_chain_last
  have htext : (text (List.replicate 127 [97])).length = 253 := by decide +kernel
  obtain ⟨_, hcopy⟩ := copy_of_direct hleads hzero direct_chain (by decide) (by omega)
  obtain ⟨hresult, _⟩ := (hcopy 256 (Buffer.zero 256)).1 (Nat.le_refl 256)
  rw [htext] at hresult
  exact ⟨hleads, hzero, direct_chain, htext, hresult⟩

end StubDns.Name
