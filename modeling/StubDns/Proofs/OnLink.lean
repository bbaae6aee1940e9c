import Mathlib.Algebra.Group.Nat.Defs
import StubDns.Proofs.Registry

/-! Which host an address is. Of the attached networks that hold it the longest counts, and where
several links declare that one, the last of them. The order of the links decides nothing else. -/
namespace StubDns

theorem IPv4.toNat_lt (address : IPv4) : address.toNat < 2 ^ 32 := by
  have ha := address.a.toNat_lt
  have hb := address.b.toNat_lt
  have hc := address.c.toNat_lt
  have hd := address.d.toNat_lt
  unfold toNat
  omega

namespace Subnet

variable {network other : Subnet} {address : IPv4}

/-- The address is in the network: they agree under the mask of the prefix, and the host bits of the
network do not count. -/
def Holds (network : Subnet) (address : IPv4) : Prop :=
  address.toNat &&& mask network.prefixLen = network.address.toNat &&& mask network.prefixLen

/-- The same network, whatever the host bits. -/
def Same (network other : Subnet) : Prop :=
  network.prefixLen = other.prefixLen ∧
    network.address.toNat &&& mask network.prefixLen = other.address.toNat &&& mask other.prefixLen

instance : Decidable (network.Holds address) := inferInstanceAs (Decidable (_ = _))

instance : Decidable (network.Same other) := inferInstanceAs (Decidable (_ ∧ _))

theorem mask_eq {length : Nat} (h : length ≤ 32) :
    mask length = (2 ^ length - 1) <<< (32 - length) := by
  have hsum : length + (32 - length) = 32 := by omega
  rw [mask, Nat.one_shiftLeft, Nat.one_shiftLeft, Nat.shiftLeft_eq, Nat.sub_mul, ← Nat.pow_add,
    hsum, Nat.one_mul]

/-- A mask keeps the leading bits where they are. -/
theorem land_mask {word length : Nat} (hword : word < 2 ^ 32) (hlength : length ≤ 32) :
    word &&& mask length = word >>> (32 - length) <<< (32 - length) := by
  have hleading : word >>> (32 - length) < 2 ^ length := by
    have hsum : 32 - length + length = 32 := by omega
    rw [Nat.shiftRight_eq_div_pow]
    apply Nat.div_lt_of_lt_mul
    rw [← Nat.pow_add, hsum]
    exact hword
  have hshift : word &&& (2 ^ length - 1) <<< (32 - length) =
      (word >>> (32 - length) &&& (2 ^ length - 1)) <<< (32 - length) := by
    apply Nat.eq_of_testBit_eq
    intro place
    simp only [Nat.testBit_and, Nat.testBit_shiftLeft, Nat.testBit_shiftRight, ge_iff_le]
    by_cases hplace : 32 - length ≤ place
    · simp [hplace]
    · simp [hplace]
  rw [mask_eq hlength, hshift, Nat.and_two_pow_sub_one_of_lt_two_pow hleading]

theorem contains_iff : network.contains address = true ↔ network.Holds address := by
  have hlength := network.prefixLen_le
  rw [Holds, land_mask address.toNat_lt hlength, land_mask network.address.toNat_lt hlength]
  unfold contains
  rw [beq_iff_eq]
  constructor
  · intro h
    rw [h]
  · intro h
    rw [Nat.shiftLeft_eq, Nat.shiftLeft_eq] at h
    exact Nat.eq_of_mul_eq_mul_right (Nat.two_pow_pos _) h

/-- Networks of one length that hold the same address are the same. -/
theorem same_of_holds (h : network.Holds address) (hother : other.Holds address)
    (hlength : network.prefixLen = other.prefixLen) : network.Same other := by
  refine ⟨hlength, ?_⟩
  rw [Holds] at h hother
  rw [← h, ← hother, hlength]

theorem Same.holds (h : network.Same other) (hholds : network.Holds address) :
    other.Holds address := by
  obtain ⟨hlength, hnetwork⟩ := h
  rw [Holds] at hholds ⊢
  rw [← hnetwork, ← hholds, hlength]

/-- The addresses of the host itself. -/
def loopback : Subnet := { address := ⟨127, 0, 0, 0⟩, prefixLen := 8 }

/-- The addresses of multicast groups. -/
def multicast : Subnet := { address := ⟨224, 0, 0, 0⟩, prefixLen := 4 }

theorem isLoopback_iff : address.isLoopback = true ↔ loopback.Holds address := by
  have hb := address.b.toNat_lt
  have hc := address.c.toNat_lt
  have hd := address.d.toNat_lt
  have hfirst : address.toNat >>> 24 = address.a.toNat := by
    rw [Nat.shiftRight_eq_div_pow, IPv4.toNat]
    omega
  have hcontains : loopback.contains address = (address.a.toNat == 127) := by
    rw [← hfirst]
    rfl
  rw [← contains_iff, hcontains, IPv4.isLoopback, beq_iff_eq, beq_iff_eq, ← UInt8.toNat_inj]
  rfl

theorem isMulticast_iff : address.isMulticast = true ↔ multicast.Holds address := by
  have hb := address.b.toNat_lt
  have hc := address.c.toNat_lt
  have hd := address.d.toNat_lt
  have hfirst : address.toNat >>> 28 = address.a.toNat / 16 := by
    rw [Nat.shiftRight_eq_div_pow, IPv4.toNat]
    omega
  have hcontains : multicast.contains address = (address.a.toNat / 16 == 14) := by
    rw [← hfirst]
    rfl
  rw [← contains_iff, hcontains, IPv4.isMulticast]

end Subnet

namespace Registry

variable {links links' front back : List Link} {address : IPv4} {scopeId : UInt32} {link : Link}
  {host : HostAddress}

/-- The link's network holds the address, and it is on the wanted interface. -/
def Matches (address : IPv4) (scopeId : UInt32) (link : Link) : Prop :=
  link.network.Holds address ∧ (scopeId = 0 ∨ link.scopeId = scopeId)

/-- Of the links that match, `link` is the last one with the longest prefix. -/
structure Decides (front : List Link) (link : Link) (back : List Link) (address : IPv4)
    (scopeId : UInt32) : Prop where
  matching : Matches address scopeId link
  front : ∀ other ∈ front, Matches address scopeId other →
    other.network.prefixLen ≤ link.network.prefixLen
  back : ∀ other ∈ back, Matches address scopeId other →
    other.network.prefixLen < link.network.prefixLen

/-- The host that an address is, by the links that match it. -/
inductive Classified (links : List Link) (address : IPv4) (scopeId : UInt32) : HostAddress → Prop
  | loopback : Subnet.loopback.Holds address →
      Classified links address scopeId ⟨address, .preferred, 1, some 8⟩
  | multicast : Subnet.multicast.Holds address →
      Classified links address scopeId ⟨address, .nonMember, scopeId, none⟩
  | destination : ¬ Subnet.loopback.Holds address → ¬ Subnet.multicast.Holds address →
      (∀ link ∈ links, ¬ Matches address scopeId link) →
      Classified links address scopeId ⟨address, .destination, scopeId, none⟩
  | onLink {front : List Link} {link : Link} {back : List Link} :
      ¬ Subnet.loopback.Holds address → ¬ Subnet.multicast.Holds address →
      links = front ++ link :: back → Decides front link back address scopeId →
      Classified links address scopeId
        ⟨address, .onLink, link.scopeId, some link.network.prefixLen⟩

theorem reaches_iff : reaches address scopeId link = true ↔ Matches address scopeId link := by
  rw [reaches, Bool.and_eq_true, Bool.or_eq_true, beq_iff_eq, beq_iff_eq, Subnet.contains_iff]
  exact and_comm

theorem mem_filter_reaches : link ∈ links.filter (reaches address scopeId) ↔
    link ∈ links ∧ Matches address scopeId link := by
  rw [List.mem_filter, reaches_iff]

/-- No link that matches is longer. -/
theorem Decides.le_of_mem {other : Link} (h : Decides front link back address scopeId)
    (hmem : other ∈ front ++ link :: back) (hmatch : Matches address scopeId other) :
    other.network.prefixLen ≤ link.network.prefixLen := by
  rcases List.mem_append.mp hmem with hfront | hrest
  · exact h.front other hfront hmatch
  · rcases List.mem_cons.mp hrest with rfl | hback
    · exact Nat.le_refl _
    · exact Nat.le_of_lt (h.back other hback hmatch)

/-- What is preferred is one of the links. -/
theorem mem_of_foldl_prefer (h : links.foldl prefer none = some link) : link ∈ links := by
  induction links using List.reverseRecOn with
  | nil => cases h
  | append_singleton links last ih =>
    rw [List.foldl_concat] at h
    cases hbest : links.foldl prefer none with
    | none =>
      rw [hbest] at h
      cases h
      exact List.mem_concat_self
    | some best =>
      rw [hbest, prefer] at h
      split at h
      · cases h
        exact List.mem_concat_self
      · cases h
        exact List.mem_append_left _ (ih hbest)

/-- A link stays preferred while only shorter networks follow. -/
theorem foldl_prefer_of_lt
    (h : ∀ other ∈ links, other.network.prefixLen < link.network.prefixLen) :
    links.foldl prefer (some link) = some link := by
  induction links with
  | nil => rfl
  | cons other links ih =>
    obtain ⟨hother, hlinks⟩ := List.forall_mem_cons.mp h
    rw [List.foldl_cons, prefer, if_neg (Nat.not_le_of_lt hother)]
    exact ih hlinks

theorem linkFor_of_decides (h : Decides front link back address scopeId) :
    linkFor (front ++ link :: back) address scopeId = some link := by
  unfold linkFor
  rw [List.filter_append, List.filter_cons_of_pos (reaches_iff.mpr h.matching), List.foldl_append,
    List.foldl_cons]
  have htaken : prefer ((front.filter (reaches address scopeId)).foldl prefer none) link =
      some link := by
    cases hbest : (front.filter (reaches address scopeId)).foldl prefer none with
    | none => rfl
    | some best =>
      obtain ⟨hmem, hmatch⟩ := mem_filter_reaches.mp (mem_of_foldl_prefer hbest)
      exact if_pos (h.front best hmem hmatch)
  rw [htaken]
  apply foldl_prefer_of_lt
  intro other hother
  obtain ⟨hmem, hmatch⟩ := mem_filter_reaches.mp hother
  exact h.back other hmem hmatch

theorem linkFor_of_no_match (h : ∀ link ∈ links, ¬ Matches address scopeId link) :
    linkFor links address scopeId = none := by
  have hnone : links.filter (reaches address scopeId) = [] := by
    apply List.filter_eq_nil_iff.mpr
    intro link hlink hreaches
    exact h link hlink (reaches_iff.mp hreaches)
  rw [linkFor, hnone]
  rfl

/-- No link matches, or there is a last one with the longest prefix. -/
theorem no_match_or_decides (links : List Link) (address : IPv4) (scopeId : UInt32) :
    (∀ link ∈ links, ¬ Matches address scopeId link) ∨
      ∃ front link back, links = front ++ link :: back ∧
        Decides front link back address scopeId := by
  -- a link in front takes the place of the one that decides behind it only if it is longer
  induction links with
  | nil => exact .inl (List.forall_mem_nil _)
  | cons first links ih =>
    by_cases hfirst : Matches address scopeId first
    · right
      rcases ih with hnone | ⟨front, link, back, rfl, hdecides⟩
      · refine ⟨[], first, links, rfl, hfirst, List.forall_mem_nil _, ?_⟩
        intro other hother hmatch
        exact absurd hmatch (hnone other hother)
      · by_cases hlonger : first.network.prefixLen ≤ link.network.prefixLen
        · refine ⟨first :: front, link, back, rfl, hdecides.matching, ?_, hdecides.back⟩
          exact List.forall_mem_cons.mpr ⟨fun _ => hlonger, hdecides.front⟩
        · refine ⟨[], first, front ++ link :: back, rfl, hfirst, List.forall_mem_nil _, ?_⟩
          intro other hother hmatch
          have hle := hdecides.le_of_mem hother hmatch
          omega
    · rcases ih with hnone | ⟨front, link, back, rfl, hdecides⟩
      · exact .inl (List.forall_mem_cons.mpr ⟨hfirst, hnone⟩)
      · right
        refine ⟨first :: front, link, back, rfl, hdecides.matching, ?_, hdecides.back⟩
        exact List.forall_mem_cons.mpr ⟨fun hmatch => absurd hmatch hfirst, hdecides.front⟩

theorem classified_classify (links : List Link) (address : IPv4) (scopeId : UInt32) :
    Classified links address scopeId (classify links address scopeId) := by
  unfold classify
  by_cases hloopback : address.isLoopback = true
  · rw [if_pos hloopback]
    exact .loopback (Subnet.isLoopback_iff.mp hloopback)
  rw [if_neg hloopback]
  rw [Subnet.isLoopback_iff] at hloopback
  by_cases hmulticast : address.isMulticast = true
  · rw [if_pos hmulticast]
    exact .multicast (Subnet.isMulticast_iff.mp hmulticast)
  rw [if_neg hmulticast]
  rw [Subnet.isMulticast_iff] at hmulticast
  rcases no_match_or_decides links address scopeId with hnone | ⟨front, link, back, rfl, hdecides⟩
  · rw [linkFor_of_no_match hnone]
    exact .destination hloopback hmulticast hnone
  · rw [linkFor_of_decides hdecides]
    exact .onLink hloopback hmulticast rfl hdecides

/-- No address is both of the host itself and of a multicast group. -/
theorem not_multicast_of_loopback (h : Subnet.loopback.Holds address) :
    ¬ Subnet.multicast.Holds address := by
  rw [← Subnet.isLoopback_iff, IPv4.isLoopback, beq_iff_eq] at h
  rw [← Subnet.isMulticast_iff, IPv4.isMulticast, h]
  exact nofun

/-- The links leave only one host that an address can be. -/
theorem Classified.eq_classify (h : Classified links address scopeId host) :
    classify links address scopeId = host := by
  unfold classify
  cases h with
  | loopback hloopback => exact if_pos (Subnet.isLoopback_iff.mpr hloopback)
  | multicast hmulticast =>
    have hloopback : ¬ address.isLoopback = true := by
      intro h
      exact not_multicast_of_loopback (Subnet.isLoopback_iff.mp h) hmulticast
    rw [if_neg hloopback, if_pos (Subnet.isMulticast_iff.mpr hmulticast)]
  | destination hloopback hmulticast hnone =>
    rw [if_neg (Subnet.isLoopback_iff.not.mpr hloopback),
      if_neg (Subnet.isMulticast_iff.not.mpr hmulticast), linkFor_of_no_match hnone]
  | onLink hloopback hmulticast hlinks hdecides =>
    rw [if_neg (Subnet.isLoopback_iff.not.mpr hloopback),
      if_neg (Subnet.isMulticast_iff.not.mpr hmulticast), hlinks, linkFor_of_decides hdecides]

theorem classify_eq_iff :
    classify links address scopeId = host ↔ Classified links address scopeId host := by
  constructor
  · rintro rfl
    exact classified_classify links address scopeId
  · exact Classified.eq_classify

theorem Classified.unique {other : HostAddress} (h : Classified links address scopeId host)
    (hother : Classified links address scopeId other) : host = other :=
  h.eq_classify.symm.trans hother.eq_classify

/-- Links in another order give the same host, or they have it on a link of the same length. -/
theorem Classified.of_perm {host' : HostAddress} (h : Classified links address scopeId host)
    (h' : Classified links' address scopeId host') (hperm : links'.Perm links) :
    host' = host ∨ ∃ link ∈ links, ∃ link' ∈ links,
      Matches address scopeId link ∧ Matches address scopeId link' ∧
      link.network.prefixLen = link'.network.prefixLen ∧
      host = ⟨address, .onLink, link.scopeId, some link.network.prefixLen⟩ ∧
      host' = ⟨address, .onLink, link'.scopeId, some link'.network.prefixLen⟩ := by
  cases h with
  | loopback hloopback => exact .inl (h'.unique (.loopback hloopback))
  | multicast hmulticast => exact .inl (h'.unique (.multicast hmulticast))
  | destination hloopback hmulticast hnone =>
    have hnone' : ∀ link ∈ links', ¬ Matches address scopeId link := by
      intro link hlink
      exact hnone link (hperm.mem_iff.mp hlink)
    exact .inl (h'.unique (.destination hloopback hmulticast hnone'))
  | @onLink front link back hloopback hmulticast hlinks hdecides =>
    have hlink : link ∈ links := by
      rw [hlinks]
      exact List.mem_append_cons_self
    cases h' with
    | loopback h => exact absurd h hloopback
    | multicast h => exact absurd h hmulticast
    | destination _ _ hnone =>
      exact absurd hdecides.matching (hnone link (hperm.mem_iff.mpr hlink))
    | @onLink front' link' back' _ _ hlinks' hdecides' =>
      have hlink' : link' ∈ links' := by
        rw [hlinks']
        exact List.mem_append_cons_self
      have hle : link.network.prefixLen ≤ link'.network.prefixLen := by
        apply hdecides'.le_of_mem _ hdecides.matching
        rw [← hlinks']
        exact hperm.mem_iff.mpr hlink
      have hge : link'.network.prefixLen ≤ link.network.prefixLen := by
        apply hdecides.le_of_mem _ hdecides'.matching
        rw [← hlinks]
        exact hperm.mem_iff.mp hlink'
      exact .inr ⟨link, hlink, link', hperm.mem_iff.mp hlink', hdecides.matching,
        hdecides'.matching, Nat.le_antisymm hle hge, rfl, rfl⟩

/-- Two links declare the network that puts `host` on a link, on different interfaces. -/
def Contested (links : List Link) (host : HostAddress) : Prop :=
  host.state = .onLink ∧ ∃ first ∈ links, ∃ second ∈ links,
    first.network.Holds host.address ∧ host.prefixLen = some first.network.prefixLen ∧
    first.network.Same second.network ∧ first.scopeId ≠ second.scopeId

theorem classify_perm_of_scope (hscope : scopeId ≠ 0) (hperm : links'.Perm links) :
    classify links' address scopeId = classify links address scopeId := by
  rcases (classified_classify links address scopeId).of_perm
      (classified_classify links' address scopeId) hperm with
    hsame | ⟨link, _, link', _, ⟨_, hlink⟩, ⟨_, hlink'⟩, hlength, hhost, hhost'⟩
  · exact hsame
  · have hlink := hlink.resolve_left hscope
    have hlink' := hlink'.resolve_left hscope
    rw [hhost, hhost', hlength, hlink, hlink']

theorem state_prefixLen_perm (hperm : links'.Perm links) (address : IPv4) (scopeId : UInt32) :
    (classify links' address scopeId).state = (classify links address scopeId).state ∧
      (classify links' address scopeId).prefixLen =
        (classify links address scopeId).prefixLen := by
  rcases (classified_classify links address scopeId).of_perm
      (classified_classify links' address scopeId) hperm with
    hsame | ⟨link, _, link', _, _, _, hlength, hhost, hhost'⟩
  · rw [hsame]
    exact ⟨rfl, rfl⟩
  · rw [hhost, hhost', hlength]
    exact ⟨rfl, rfl⟩

theorem classify_perm_of_not_contested
    (hcontested : ¬ Contested links (classify links address scopeId)) (hperm : links'.Perm links) :
    classify links' address scopeId = classify links address scopeId := by
  rcases (classified_classify links address scopeId).of_perm
      (classified_classify links' address scopeId) hperm with
    hsame | ⟨link, hmem, link', hmem', ⟨hholds, _⟩, ⟨hholds', _⟩, hlength, hhost, hhost'⟩
  · exact hsame
  · by_cases hscopes : link.scopeId = link'.scopeId
    · rw [hhost, hhost', hlength, hscopes]
    · rw [hhost] at hcontested
      exact absurd ⟨rfl, link, hmem, link', hmem', hholds, rfl,
        Subnet.same_of_holds hholds hholds' hlength, hscopes⟩ hcontested

/-- A longest link that is declared last decides. -/
theorem classify_erase_concat {front back : List Link} {first : Link}
    (hloopback : ¬ Subnet.loopback.Holds address) (hmulticast : ¬ Subnet.multicast.Holds address)
    (hdecides : Decides front link back address scopeId)
    (hmatch : Matches address scopeId first)
    (hlength : first.network.prefixLen = link.network.prefixLen) :
    classify ((front ++ link :: back).erase first ++ [first]) address scopeId =
      ⟨address, .onLink, first.scopeId, some first.network.prefixLen⟩ := by
  apply Classified.eq_classify
  refine .onLink hloopback hmulticast rfl ⟨hmatch, ?_, List.forall_mem_nil _⟩
  intro other hother hothers
  rw [hlength]
  exact hdecides.le_of_mem (List.mem_of_mem_erase hother) hothers

theorem erase_concat_perm {first : Link} (h : first ∈ links) :
    (links.erase first ++ [first]).Perm links :=
  (List.perm_append_singleton first _).trans (List.perm_cons_erase h).symm

/-- Where the interface is contested, some order of the links gives another one. -/
theorem Contested.exists_perm (h : Contested links host) (hhost : Classified links address 0 host) :
    ∃ links', links'.Perm links ∧ classify links' address 0 ≠ host := by
  obtain ⟨hstate, first, hfirst, second, hsecond, hholds, hprefix, hsame, hscopes⟩ := h
  cases hhost with
  | loopback | multicast | destination => cases hstate
  | @onLink front link back hloopback hmulticast hlinks hdecides =>
    subst hlinks
    have hlength : link.network.prefixLen = first.network.prefixLen := Option.some.inj hprefix
    by_cases hscope : first.scopeId = link.scopeId
    · refine ⟨_, erase_concat_perm hsecond, ?_⟩
      rw [classify_erase_concat hloopback hmulticast hdecides ⟨hsame.holds hholds, .inl rfl⟩
        (hsame.1.symm.trans hlength.symm)]
      intro hequal
      have hsecondScope : second.scopeId = link.scopeId := congrArg HostAddress.scopeId hequal
      exact hscopes (hscope.trans hsecondScope.symm)
    · refine ⟨_, erase_concat_perm hfirst, ?_⟩
      rw [classify_erase_concat hloopback hmulticast hdecides ⟨hholds, .inl rfl⟩ hlength.symm]
      intro hequal
      exact hscope (congrArg HostAddress.scopeId hequal)

theorem links_foldl_withLink (links : List Link) (registry : Registry) :
    links.foldl withLink registry = { registry with links := registry.links ++ links } := by
  induction links generalizing registry with
  | nil => rw [List.append_nil, List.foldl_nil]
  | cons link links ih =>
    rw [List.foldl_cons, ih, withLink, List.append_assoc, List.singleton_append]

/-- The links are declared one after another, and then every key is asked for. -/
def asked (links : List Link) (keys : List Key) : Registry :=
  keys.foldl (fun registry key => (registry.hostByAddress key.1 key.2).2) (links.foldl withLink {})

theorem asked_eq_after (links : List Link) (keys : List Key) :
    asked links keys = after links keys := by
  unfold asked
  induction keys using List.reverseRecOn with
  | nil =>
    rw [List.foldl_nil, links_foldl_withLink, after_nil]
    rfl
  | append_singleton keys key ih => rw [List.foldl_concat, ih, hostByAddress_after]

/-- A registry gives the host that the declared links make of an address, whatever it was asked for
before. That is the host of a longest-prefix match, for which the order of the links counts only
where no interface is asked for and two of them contest the network that is matched. -/
theorem host_by_longest_prefix (links : List Link) (keys : List Key) (address : IPv4)
    (scopeId : UInt32) :
    let host := ((asked links keys).hostByAddress address scopeId).1.host
    (∀ other, host = other ↔ Classified links address scopeId other) ∧
    (∀ links' keys', links'.Perm links →
      let host' := ((asked links' keys').hostByAddress address scopeId).1.host
      (scopeId ≠ 0 → host' = host) ∧ host'.state = host.state ∧ host'.prefixLen = host.prefixLen ∧
      (host'.scopeId = host.scopeId ∨ Contested links host)) ∧
    (scopeId = 0 → Contested links host → ∃ links', links'.Perm links ∧
      ((asked links' keys).hostByAddress address scopeId).1.host ≠ host) := by
  have hanswer : ∀ links keys, ((asked links keys).hostByAddress address scopeId).1.host =
      classify links address scopeId := by
    intro links keys
    rw [asked_eq_after]
    exact congrArg (·.1.host) (hostByAddress_after links keys (address, scopeId))
  simp only [hanswer]
  refine ⟨fun other => classify_eq_iff, ?_, ?_⟩
  · intro links' keys' hperm
    obtain ⟨hstate, hprefix⟩ := state_prefixLen_perm hperm address scopeId
    refine ⟨fun hscope => classify_perm_of_scope hscope hperm, hstate, hprefix, ?_⟩
    by_cases hcontested : Contested links (classify links address scopeId)
    · exact .inr hcontested
    · exact .inl (congrArg HostAddress.scopeId (classify_perm_of_not_contested hcontested hperm))
  · rintro rfl hcontested
    exact hcontested.exists_perm (classified_classify links address 0)

/-- Three links hold the address, two of them on the same network behind different host bits: which
of these comes last counts without a wanted interface, and not with one. -/
theorem later_of_same_network :
    let near : Link := ⟨{ address := ⟨10, 1, 0, 0⟩, prefixLen := 16 }, 2⟩
    let wide : Link := ⟨{ address := ⟨10, 0, 0, 0⟩, prefixLen := 8 }, 1⟩
    let again : Link := ⟨{ address := ⟨10, 1, 9, 9⟩, prefixLen := 16 }, 3⟩
    let host (links : List Link) (scopeId : UInt32) : HostAddress :=
      ((asked links []).hostByAddress ⟨10, 1, 2, 3⟩ scopeId).1.host
    [again, wide, near].Perm [near, wide, again] ∧
    host [near, wide, again] 0 = ⟨⟨10, 1, 2, 3⟩, .onLink, 3, some 16⟩ ∧
    host [again, wide, near] 0 = ⟨⟨10, 1, 2, 3⟩, .onLink, 2, some 16⟩ ∧
    Contested [near, wide, again] (host [near, wide, again] 0) ∧
    (∃ links', links'.Perm [near, wide, again] ∧ host links' 0 ≠ host [near, wide, again] 0) ∧
    host [again, wide, near] 2 = host [near, wide, again] 2 := by
  intro near wide again host
  have hperm : [again, wide, near].Perm [near, wide, again] := List.reverse_perm [near, wide, again]
  have hhost : host [near, wide, again] 0 = ⟨⟨10, 1, 2, 3⟩, .onLink, 3, some 16⟩ := by
    decide +kernel
  have hcontested : Contested [near, wide, again] (host [near, wide, again] 0) := by
    rw [hhost]
    exact ⟨rfl, near, List.mem_cons_self, again, by simp, by decide, rfl, by decide, by decide⟩
  obtain ⟨_, _, hdiffers⟩ := host_by_longest_prefix [near, wide, again] [] ⟨10, 1, 2, 3⟩ 0
  obtain ⟨_, hsame, _⟩ := host_by_longest_prefix [near, wide, again] [] ⟨10, 1, 2, 3⟩ 2
  exact ⟨hperm, hhost, by decide +kernel, hcontested, hdiffers rfl hcontested,
    (hsame _ [] hperm).1 (by decide)⟩

end Registry
end StubDns
