import StubDns.Proofs.Decimal
import StubDns.Proofs.Name.Hostname

/-! The names that host names of addresses are asked for. Each is written as the text that people
write for it would be, and that text gives the address back. -/
namespace StubDns

namespace IPv4

def reversed (address : IPv4) : IPv4 := ⟨address.d, address.c, address.b, address.a⟩

/-- The octets in dotted decimal, the last one first, in the zone of reverse names. -/
def reverseText (address : IPv4) : List Char :=
  address.reversed.text.toList ++ ".in-addr.arpa".toList

/-- The address whose reverse name has this text. -/
def ofReverseText? (text : List Char) : Option IPv4 := do
  let (address, rest) ← read text
  if rest = ".in-addr.arpa".toList then some address.reversed else none

/-- `text` is the reverse name of `address`: its octets in decimal, the last one first, each with a
dot behind it, and then the zone. -/
def IsReverseText (address : IPv4) (text : List Char) : Prop :=
  ∃ d c b a, IsDecimal address.d.toNat d ∧ IsDecimal address.c.toNat c ∧
    IsDecimal address.b.toNat b ∧ IsDecimal address.a.toNat a ∧
      text = d ++ '.' :: (c ++ '.' :: (b ++ '.' :: (a ++ ".in-addr.arpa".toList)))

variable {address : IPv4} {text : List Char} {c : Char}

theorem reverseText_eq (address : IPv4) : address.reverseText =
    Nat.toDigits 10 address.d.toNat ++ '.' :: (Nat.toDigits 10 address.c.toNat ++ '.' ::
      (Nat.toDigits 10 address.b.toNat ++ '.' :: (Nat.toDigits 10 address.a.toNat ++
        ".in-addr.arpa".toList))) := by
  simp only [reverseText, toList_text, reversed, List.append_assoc, List.cons_append]

theorem isReverseText_iff : address.IsReverseText text ↔ text = address.reverseText := by
  simp only [IsReverseText, isDecimal_iff, reverseText_eq]
  constructor
  · rintro ⟨_, _, _, _, rfl, rfl, rfl, rfl, htext⟩
    exact htext
  · intro htext
    exact ⟨_, _, _, _, rfl, rfl, rfl, rfl, htext⟩

theorem ofReverseText?_reverseText (address : IPv4) :
    ofReverseText? address.reverseText = some address := by
  have hread : read address.reverseText = some (address.reversed, ".in-addr.arpa".toList) :=
    read_text address.reversed rfl
  rw [ofReverseText?, hread]
  rfl

theorem ascii_of_mem_reverseText (h : c ∈ address.reverseText) : c.toNat < 128 := by
  have hdigits (octet : UInt8) (hc : c ∈ Nat.toDigits 10 octet.toNat) : c.toNat < 128 := by
    have hrange := toNat_digit (digit_of_mem_toDigits hc)
    omega
  have hzone : ".in-addr.arpa".toList.all (fun c => c.toNat < 128) = true := by decide
  rw [reverseText_eq] at h
  simp only [List.mem_append, List.mem_cons] at h
  rcases h with h | rfl | h | rfl | h | rfl | h | h
  · exact hdigits _ h
  · decide
  · exact hdigits _ h
  · decide
  · exact hdigits _ h
  · decide
  · exact hdigits _ h
  · exact of_decide_eq_true (List.all_eq_true.mp hzone c h)

end IPv4

namespace Name

variable {capacity encoded size : Nat} {writer moved : Writer capacity} {names : List Bytes}
  {reason : WireError}

/-- The text of the reverse name, in bytes. -/
def reverseText (address : IPv4) : Bytes := Utf8.encode address.reverseText

/-- The address whose reverse name has this text. -/
def reverseAddress? (text : Bytes) : Option IPv4 :=
  (Utf8.decode? text).bind IPv4.ofReverseText?

theorem reverseAddress?_reverseText (address : IPv4) :
    reverseAddress? (reverseText address) = some address := by
  have hascii : ∀ c ∈ address.reverseText, c.toNat < 128 := fun _ => IPv4.ascii_of_mem_reverseText
  rw [reverseAddress?, reverseText, Utf8.decode?_encode hascii, Option.bind_some,
    IPv4.ofReverseText?_reverseText]

/-- The text is the labels of the name, joined by dots. -/
theorem reverseText_eq_text (address : IPv4) :
    reverseText address = text (reverseLabels address) := by
  have hascii : ∀ c ∈ address.reverseText, c.toNat < 128 := fun _ => IPv4.ascii_of_mem_reverseText
  have hzone : (".in-addr.arpa".toList.map fun c => UInt8.ofNat c.toNat) =
      dot :: text reverseZone := by decide
  have hdot : UInt8.ofNat '.'.toNat = dot := rfl
  rw [reverseText, Utf8.encode_eq_map hascii, IPv4.reverseText_eq]
  simp only [List.map_append, List.map_cons, hzone, hdot]
  simp [text, reverseLabels, reverseZone, IPv4.octets, decimalLabel]

theorem digit_of_mem_decimalLabel {octet byte : UInt8} (h : byte ∈ decimalLabel octet) :
    48 ≤ byte.toNat ∧ byte.toNat ≤ 57 := by
  obtain ⟨c, hc, rfl⟩ := List.mem_map.mp h
  have hrange := toNat_digit (digit_of_mem_toDigits hc)
  rw [UInt8.toNat_ofNat']
  omega

theorem mem_reverseLabels {address : IPv4} {label : Bytes} (h : label ∈ reverseLabels address) :
    (∃ octet, label = decimalLabel octet) ∨ label ∈ reverseZone := by
  rcases List.mem_append.mp h with h | h
  · obtain ⟨octet, _, rfl⟩ := List.mem_map.mp h
    exact .inl ⟨octet, rfl⟩
  · exact .inr h

theorem validLabels_reverseLabels (address : IPv4) : ValidLabels (reverseLabels address) := by
  have hvalid : ValidLabels reverseZone := by decide
  intro label hlabel
  obtain ⟨octet, rfl⟩ | hzone := mem_reverseLabels hlabel
  · obtain ⟨hpos, hle⟩ := length_decimalLabel octet
    exact ⟨List.ne_nil_of_length_pos hpos, by omega⟩
  · exact hvalid label hzone

/-- No reverse name is long. -/
theorem length_wire_reverseLabels (address : IPv4) :
    (wire (reverseLabels address)).length ≤ 30 := by
  have ha := length_decimalLabel address.a
  have hb := length_decimalLabel address.b
  have hc := length_decimalLabel address.c
  have hd := length_decimalLabel address.d
  have hcharge : charge (reverseLabels address) =
      (decimalLabel address.d).length + 1 + ((decimalLabel address.c).length + 1 +
        ((decimalLabel address.b).length + 1 + ((decimalLabel address.a).length + 1 + 13))) := rfl
  rw [length_wire, hcharge]
  omega

/-- The name is written for the text as it is for the address. -/
theorem labels_reverseText (address : IPv4) :
    labels (reverseText address) = reverseLabels address := by
  have hnone : ∀ label ∈ reverseZone, dot ∉ label := by decide
  rw [reverseText_eq_text]
  apply List.splitOn_intercalate
  · intro label hlabel hdot
    obtain ⟨octet, rfl⟩ | hzone := mem_reverseLabels hlabel
    · have hrange := digit_of_mem_decimalLabel hdot
      have hvalue : dot.toNat = 46 := rfl
      omega
    · exact hnone label hzone hdot
  · exact List.append_ne_nil_of_right_ne_nil _ (List.cons_ne_nil _ _)

theorem reverseText_eq_append (address : IPv4) :
    ∃ front, reverseText address = front ++ dot :: text reverseZone := by
  have hzone : Utf8.encode ".in-addr.arpa".toList = dot :: text reverseZone := by decide
  refine ⟨Utf8.encode address.reversed.text.toList, ?_⟩
  rw [← hzone]
  exact List.flatMap_append

/-- A reverse name is complete as it is. -/
theorem qualified_reverseText (address : IPv4) (suffix : Option Bytes) :
    qualified (reverseText address) suffix = reverseText address := by
  obtain ⟨front, htext⟩ := reverseText_eq_append address
  have hdot : dot ∈ reverseText address := by simp [htext]
  have hend : dropDot (dot :: text reverseZone) = dot :: text reverseZone := by decide
  rw [qualified_of_mem hdot, htext, dropDot_append front (List.cons_ne_nil _ _), hend]

theorem putReverse_eq (address : IPv4) (suffix : Option Bytes) :
    (putReverse address : Writing capacity Nat) = putHostname (reverseText address) suffix := by
  have hsome : reverseText address ≠ [] := by
    obtain ⟨front, htext⟩ := reverseText_eq_append address
    simp [htext]
  rw [putHostname_eq _ _ hsome, qualified_reverseText, labels_reverseText,
    putReverse_eq_putLabels]

theorem bufferFull_of_putLabels (hnames : ValidLabels names)
    (hsize : encoded + (wire names).length ≤ 255)
    (h : (putLabels encoded names).run writer = .error reason moved) : reason = .bufferFull := by
  induction names generalizing encoded writer with
  | nil =>
    rw [putLabels, EStateM.run_bind] at h
    split at h
    · cases h
    · next hput =>
      cases h
      exact (Writing.put_error_iff.mp hput).2.1
  | cons label names ih =>
    obtain ⟨⟨hsome, hlabel⟩, hnames⟩ := List.forall_mem_cons.mp hnames
    rw [length_wire_cons] at hsize
    have hpos := length_wire_pos names
    rw [putLabels, EStateM.run_bind] at h
    split at h
    · exact ih hnames (by omega) h
    · next hput =>
      cases h
      have hmax : ¬ labelMax < label.length := Nat.not_lt.mpr hlabel
      have hfits : ¬ sizeMax ≤ encoded + 1 + label.length + 1 := by
        rw [sizeMax]
        omega
      rw [putLabel, if_neg hsome, if_neg hmax, if_neg hfits, EStateM.run_bind] at hput
      split at hput
      · exact (Writing.put_error_iff.mp hput).2.1
      · next hbyte =>
        cases hput
        exact (Writing.put_error_iff.mp hbyte).2.1

theorem encodable_name (address : IPv4) : (Question.name address).Encodable :=
  ⟨validLabels_reverseLabels address, Nat.le_trans (length_wire_reverseLabels address) (by decide)⟩

/-- An encoded reverse name is decoded to its text, wherever it stands. -/
theorem copy_reverse {message : Bytes} {position room : Nat} (address : IPv4)
    (hheld : message.HoldsAt position (wire (reverseLabels address))) (hroom : 256 ≤ room)
    (out : Buffer room) :
    (copy message position out).1 = .ok (reverseText address).length ∧
      (copy message position out).2.bytes.take (reverseText address).length =
        reverseText address := by
  have hsize := length_wire_reverseLabels address
  have hsome : reverseLabels address ≠ [] :=
    List.append_ne_nil_of_right_ne_nil _ (List.cons_ne_nil _ _)
  have hlegible := legible_wire (validLabels_reverseLabels address) hsome (by omega) hheld
  rw [reverseText_eq_text]
  exact copy_of_legible hroom hlegible out

/-- Reverse names are told apart by their bytes. -/
theorem wire_reverseLabels_injective {address other : IPv4}
    (h : wire (reverseLabels address) = wire (reverseLabels other)) : address = other := by
  have hheld (names : List Bytes) : (wire names).HoldsAt 0 (wire names) :=
    Bytes.holdsAt_iff.mpr ⟨[], [], by simp, rfl⟩
  obtain ⟨hsize, htext⟩ := copy_reverse address (hheld _) (Nat.le_refl 256) (Buffer.zero 256)
  obtain ⟨hsize', htext'⟩ := copy_reverse other (hheld _) (Nat.le_refl 256) (Buffer.zero 256)
  rw [← h] at hsize' htext'
  have hlength : (reverseText address).length = (reverseText other).length :=
    Except.ok.inj (hsize.symm.trans hsize')
  rw [← hlength] at htext'
  have hsame : reverseText address = reverseText other := htext.symm.trans htext'
  apply Option.some.inj
  rw [← reverseAddress?_reverseText, hsame, reverseAddress?_reverseText]

theorem putReverse_ok_iff {address : IPv4} :
    (putReverse address).run writer = .ok size moved ↔
      writer.position + (wire (reverseLabels address)).length ≤ capacity ∧
        size = (wire (reverseLabels address)).length ∧
          moved = writer.append (wire (reverseLabels address)) := by
  have hput : (Question.name address).putName.run writer = .ok size moved ↔ _ :=
    Question.putName_ok_iff
  exact hput.trans (and_iff_right (encodable_name address))

/-- What has been written for an address decodes to its text, whatever is put behind it. -/
theorem copy_of_putReverse {address : IPv4} {room : Nat}
    (h : (putReverse address).run writer = .ok size moved) (after : Bytes) (hroom : 256 ≤ room)
    (out : Buffer room) :
    (copy (moved.written ++ after) writer.position out).1 = .ok (reverseText address).length ∧
      (copy (moved.written ++ after) writer.position out).2.bytes.take
        (reverseText address).length = reverseText address := by
  obtain ⟨hfits, _, rfl⟩ := putReverse_ok_iff.mp h
  have hfront : writer.written.length = writer.position :=
    Writer.length_written_of_le (by omega)
  have hheld : ((writer.append (wire (reverseLabels address))).written ++ after).HoldsAt
      writer.position (wire (reverseLabels address)) :=
    Bytes.holdsAt_iff.mpr ⟨writer.written, after, by rw [Writer.written_append hfits], hfront⟩
  exact copy_reverse address hheld hroom out

/-- What was written behind the place where the writing began. -/
theorem drop_written_append {data : Bytes} (h : writer.position + data.length ≤ capacity) :
    (writer.append data).written.drop writer.position = data := by
  rw [Writer.written_append h, List.drop_left' (Writer.length_written_of_le (by omega))]

/-- The reverse name of an address is written just as the text of its octets in decimal, the last
one first, would be written for a host name, in any place and with any suffix, and only for want of
room is it not. What was written decodes to that text, from which the address can be read, so no two
addresses share a reverse name. -/
theorem reverse_written_as_text (address : IPv4) :
    let text := reverseText address
    (∀ chars, address.IsReverseText chars → Utf8.encode chars = text) ∧
    (∃ chars, address.IsReverseText chars) ∧
    (∀ (capacity : Nat) (writer : Writer capacity),
      (∀ suffix, (putReverse address).run writer = (putHostname text suffix).run writer) ∧
      (∀ reason moved, (putReverse address).run writer = .error reason moved →
        reason = .bufferFull) ∧
      ∀ size moved, (putReverse address).run writer = .ok size moved →
        ∀ (after : Bytes) (room : Nat) (out : Buffer room), 256 ≤ room →
          let decoded := copy (moved.written ++ after) writer.position out
          decoded.1 = .ok text.length ∧ decoded.2.bytes.take text.length = text ∧
            reverseAddress? text = some address) ∧
    (∀ (other : IPv4) (capacity capacity' : Nat) (writer moved : Writer capacity)
      (writer' moved' : Writer capacity') (size size' : Nat), address ≠ other →
        (putReverse address).run writer = .ok size moved →
        (putReverse other).run writer' = .ok size' moved' →
          moved.written.drop writer.position ≠ moved'.written.drop writer'.position) := by
  intro text
  refine ⟨?_, ⟨_, IPv4.isReverseText_iff.mpr rfl⟩, ?_, ?_⟩
  · intro chars hchars
    rw [IPv4.isReverseText_iff.mp hchars]
    rfl
  · intro capacity writer
    refine ⟨?_, ?_, ?_⟩
    · intro suffix
      rw [putReverse_eq address suffix]
    · intro reason moved h
      have hsize := length_wire_reverseLabels address
      rw [putReverse_eq_putLabels] at h
      exact bufferFull_of_putLabels (validLabels_reverseLabels address) (by omega) h
    · intro size moved h after room out hroom decoded
      obtain ⟨hresult, htext⟩ := copy_of_putReverse h after hroom out
      exact ⟨hresult, htext, reverseAddress?_reverseText address⟩
  · intro other capacity capacity' writer moved writer' moved' size size' hne h h' hsame
    obtain ⟨hfits, _, rfl⟩ := putReverse_ok_iff.mp h
    obtain ⟨hfits', _, rfl⟩ := putReverse_ok_iff.mp h'
    rw [drop_written_append hfits, drop_written_append hfits'] at hsame
    exact hne (wire_reverseLabels_injective hsame)

/-- Two addresses with the same digits, and one of them in a buffer that is full within an octet. -/
theorem reverse_of_same_digits :
    let address : IPv4 := ⟨1, 1, 11, 1⟩
    let other : IPv4 := ⟨1, 11, 1, 1⟩
    let text := Utf8.encode "1.11.1.1.in-addr.arpa".toList
    let writer : Writer 40 := ⟨Buffer.zero 40, 2⟩
    let small := Writer.start (Buffer.zero 4)
    address.IsReverseText "1.11.1.1.in-addr.arpa".toList ∧
    (putReverse address).run writer = (putHostname text (some [97])).run writer ∧
    (∃ moved, (putReverse address).run writer = .ok 23 moved ∧
      (copy (moved.written ++ [255]) 2 (Buffer.zero 256)).1 = .ok 21 ∧
      (copy (moved.written ++ [255]) 2 (Buffer.zero 256)).2.bytes.take 21 = text ∧
      reverseAddress? text = some address ∧
      ∃ moved', (putReverse other).run writer = .ok 23 moved' ∧
        moved.written.drop 2 ≠ moved'.written.drop 2) ∧
    ∃ moved, (putReverse address).run small = .error .bufferFull moved ∧
      moved.written = [1, 49, 2] := by
  intro address other text writer small
  obtain ⟨htext, _, hwritten, hapart⟩ := reverse_written_as_text address
  have hchars : address.IsReverseText "1.11.1.1.in-addr.arpa".toList :=
    IPv4.isReverseText_iff.mpr (by decide +kernel)
  obtain ⟨hsame, _, hdecoded⟩ := hwritten 40 writer
  rw [← htext _ hchars] at hsame hdecoded
  have hput : (putReverse address).run writer =
      .ok 23 (writer.append (wire (reverseLabels address))) :=
    putReverse_ok_iff.mpr ⟨by decide +kernel, by decide +kernel, rfl⟩
  have hput' : (putReverse other).run writer =
      .ok 23 (writer.append (wire (reverseLabels other))) :=
    putReverse_ok_iff.mpr ⟨by decide +kernel, by decide +kernel, rfl⟩
  have hlabels : reverseLabels address = [[49], [49, 49], [49], [49]] ++ reverseZone := by
    decide +kernel
  have hfull : (putReverse address).run small = .error .bufferFull (small.append [1, 49, 2]) := by
    rw [putReverse_eq_putLabels, hlabels]
    rfl
  obtain ⟨hsize, hbytes, haddress⟩ :=
    hdecoded _ _ hput [255] 256 (Buffer.zero 256) (Nat.le_refl 256)
  have hne : address ≠ other := by decide
  exact ⟨hchars, hsame (some [97]), ⟨_, hput, hsize, hbytes, haddress, _, hput',
    hapart other 40 40 _ _ _ _ _ _ hne hput hput'⟩, _, hfull, by decide +kernel⟩

end Name
end StubDns
