import StubDns.Proofs.Links
import StubDns.Proofs.ResolvConf.Lines

/-! The bounds of imported settings. No directive leads out of them, so no text does, and of what
validation asks for only the length of the suffix is left open. -/
namespace StubDns.ResolvConf

variable {settings : Settings} {directive : Directive} {name : List Char}

/-- What can be imported as a suffix. -/
structure IsSuffix (name : List Char) : Prop where
  nonempty : name ≠ []
  plain : ∀ c ∈ name, isBlank c = false ∧ c ≠ '#' ∧ c ≠ ';'
  undotted : name.getLast? ≠ some '.'

/-- What holds of imported settings. Waits are whole seconds. -/
structure Bounded (settings : Settings) : Prop where
  port : settings.port = 53
  links : settings.links = []
  nameserver : ∀ server, settings.nameserver = some server → ∃ address, server = .v4 address
  attempts : 1 ≤ settings.attempts.toNat ∧ settings.attempts.toNat ≤ 5
  minWait : ∃ seconds, 1 ≤ seconds ∧ seconds ≤ 30 ∧ settings.minWaitMs.toNat = seconds * 1000
  search : ∀ text, settings.search = some text → IsSuffix text.toList

theorem bounded_default : Bounded {} := by
  constructor
  case port | links => rfl
  case nameserver | search => exact nofun
  case attempts => decide
  case minWait => exact ⟨1, by decide⟩

/-- Seconds are brought within their bounds before they are multiplied, so that nothing is lost
however many they are. -/
theorem toNat_tune_timeout (settings : Settings) (seconds : Nat) :
    (tune settings (.timeout seconds)).minWaitMs.toNat = min (max seconds 1) 30 * 1000 := by
  apply UInt64.toNat_ofNat_of_lt'
  have hsize : UInt64.size = 18446744073709551616 := rfl
  omega

theorem toNat_tune_attempts (settings : Settings) (count : Nat) :
    (tune settings (.attempts count)).attempts.toNat = min (max count 1) 5 := by
  apply UInt32.toNat_ofNat_of_lt'
  have hsize : UInt32.size = 4294967296 := rfl
  omega

theorem Bounded.tune (h : Bounded settings) (tuning : Tuning) : Bounded (tune settings tuning) := by
  cases tuning with
  | timeout seconds =>
    have hwait := toNat_tune_timeout settings seconds
    exact { h with minWait := ⟨min (max seconds 1) 30, by omega, by omega, hwait⟩ }
  | attempts count =>
    have hattempts := toNat_tune_attempts settings count
    exact { h with attempts := by omega }

theorem Bounded.foldl_tune (h : Bounded settings) (tunings : List Tuning) :
    Bounded (tunings.foldl ResolvConf.tune settings) := by
  induction tunings generalizing settings with
  | nil => exact h
  | cons tuning tunings ih => exact ih (h.tune tuning)

/-- A directive that names no suffix but one that can be imported. -/
def Clean (directive : Directive) : Prop :=
  ∀ name, directive = .suffix (some name) → IsSuffix name

theorem Bounded.apply (h : Bounded settings) (hclean : Clean directive) :
    Bounded (apply settings directive) := by
  cases directive with
  | nameserver address =>
    refine { h with nameserver := ?_ }
    intro server hserver
    cases hfound : settings.nameserver with
    | some found =>
      rw [ResolvConf.apply, hfound] at hserver
      obtain rfl : found = server := Option.some.inj hserver
      exact h.nameserver found hfound
    | none =>
      rw [ResolvConf.apply, hfound] at hserver
      obtain ⟨address, -, rfl⟩ := Option.map_eq_some_iff.mp hserver
      exact ⟨address, rfl⟩
  | suffix name =>
    refine { h with search := ?_ }
    intro text htext
    obtain ⟨name, rfl, rfl⟩ := Option.map_eq_some_iff.mp htext
    rw [String.toList_ofList]
    exact hclean name rfl
  | options tunings => exact h.foldl_tune tunings
  | unknown => exact h

theorem Bounded.foldl_apply {directives : List Directive} (h : Bounded settings)
    (hclean : ∀ directive ∈ directives, Clean directive) :
    Bounded (directives.foldl ResolvConf.apply settings) := by
  induction directives generalizing settings with
  | nil => exact h
  | cons directive directives ih =>
    obtain ⟨hfirst, hrest⟩ := List.forall_mem_cons.mp hclean
    exact ih (h.apply hfirst) hrest

theorem mem_of_mem_dropDots {c : Char} (h : c ∈ dropDots name) : c ∈ name := by
  rw [dropDots, List.mem_reverse] at h
  exact List.mem_reverse.mp ((List.dropWhile_sublist _).subset h)

theorem getLast?_dropDots (name : List Char) : (dropDots name).getLast? ≠ some '.' := by
  rw [dropDots, List.getLast?_reverse]
  intro hdot
  have hhead := List.head?_dropWhile_not (· = '.') name.reverse
  rw [hdot] at hhead
  cases hhead

theorem clean_ofLine (line : List Char) : Clean (.ofLine line) := by
  intro name hname
  obtain ⟨keyword, values, hwords, -, hfirst⟩ := ofLine_eq_suffix_iff.mp hname
  obtain ⟨hsome, hempty⟩ := Option.filter_eq_some_iff.mp hfirst
  obtain ⟨value, hvalue, rfl⟩ := Option.map_eq_some_iff.mp hsome
  have hmem : value ∈ words line := by
    rw [hwords]
    exact List.mem_cons_of_mem _ (List.mem_of_head? hvalue)
  refine ⟨of_decide_eq_true hempty, ?_, getLast?_dropDots value⟩
  intro c hc
  obtain ⟨hblank, hcomment⟩ := (of_mem_words hmem).2 c (mem_of_mem_dropDots hc)
  rw [isComment, Bool.or_eq_false_iff, beq_eq_false_iff_ne, beq_eq_false_iff_ne] at hcomment
  exact ⟨hblank, hcomment⟩

theorem bounded_ofResolvConf (text : String) : Bounded (Settings.ofResolvConf text) := by
  apply bounded_default.foldl_apply
  intro directive hdirective
  obtain ⟨line, -, rfl⟩ := List.mem_map.mp hdirective
  exact clean_ofLine line

/-- Bounded settings can only be refused for the length of the suffix. -/
theorem Bounded.validate_ok_iff (h : Bounded settings) : settings.validate = .ok () ↔
    ∀ text, settings.search = some text → text.utf8ByteSize ≤ 253 := by
  rw [Settings.validate_ok_iff]
  constructor
  · rintro ⟨-, -, -, hsearch, -⟩ text htext
    exact (hsearch text htext).2
  · intro hsize
    obtain ⟨seconds, hpos, -, hwait⟩ := h.minWait
    refine ⟨?_, ?_, ?_, ?_, ?_⟩
    · rw [h.port]
      decide
    · exact ⟨h.attempts.1, Nat.le_trans h.attempts.2 (by decide)⟩
    · intro hzero
      rw [hzero, UInt64.toNat_zero] at hwait
      omega
    · intro text htext
      refine ⟨?_, hsize text htext⟩
      rintro rfl
      exact (h.search "" htext).nonempty rfl
    · rw [h.links]
      exact List.forall_mem_nil _

/-- Whatever the text, what is imported from it is within its bounds, and is accepted unless its
suffix is longer than 253 bytes. A number counts only if it fits its word, and then no arithmetic on
it goes wrong. -/
theorem import_within_bounds (text : String) :
    let settings := Settings.ofResolvConf text
    Bounded settings ∧
    (settings.validate = .ok () ↔
      settings.search = none ∨
        ∃ suffix, settings.search = some suffix ∧ suffix.utf8ByteSize ≤ 253) ∧
    (∀ option seconds, tuning? option = some (.timeout seconds) → seconds < UInt64.size ∧
      ∀ found, (tune found (.timeout seconds)).minWaitMs.toNat = min (max seconds 1) 30 * 1000) ∧
    (∀ option count, tuning? option = some (.attempts count) → count < UInt32.size ∧
      ∀ found, (tune found (.attempts count)).attempts.toNat = min (max count 1) 5) := by
  intro settings
  have hbounded : Bounded settings := bounded_ofResolvConf text
  refine ⟨hbounded, ?_, ?_, ?_⟩
  · rw [hbounded.validate_ok_iff]
    cases settings.search with
    | none => exact ⟨fun _ => .inl rfl, fun _ => nofun⟩
    | some suffix =>
      constructor
      · intro hsize
        exact .inr ⟨suffix, rfl, hsize suffix rfl⟩
      · rintro (hnone | ⟨other, hsuffix, hsize⟩) found hfound
        · cases hnone
        · rw [← Option.some.inj (hsuffix.symm.trans hfound)]
          exact hsize
  · intro option seconds h
    obtain ⟨_, _, hdigits⟩ := tuning?_eq_timeout_iff.mp h
    exact ⟨unsigned?_lt hdigits, fun found => toNat_tune_timeout found seconds⟩
  · intro option count h
    obtain ⟨_, _, hdigits⟩ := tuning?_eq_attempts_iff.mp h
    exact ⟨unsigned?_lt hdigits, fun found => toNat_tune_attempts found count⟩

/-- The largest number that fits is cut to the longest wait, and the next one is passed over. -/
theorem largest_timeout_is_cut :
    let text := "search lan.. # home\r\noptions timeout:+18446744073709551615 attempts:0\n" ++
      "options timeout:18446744073709551616 attempts:4294967296"
    let settings : Settings := { search := some "lan", attempts := 1, minWaitMs := 30000 }
    Settings.ofResolvConf text = settings ∧ Bounded settings ∧ settings.validate = .ok () ∧
    tuning? "timeout:+18446744073709551615".toList = some (.timeout 18446744073709551615) ∧
    (tune settings (.timeout 18446744073709551615)).minWaitMs.toNat = 30 * 1000 := by
  intro text settings
  have himport : Settings.ofResolvConf text = settings := by decide +kernel
  have hlargest : tuning? "timeout:+18446744073709551615".toList =
      some (.timeout 18446744073709551615) := by decide +kernel
  obtain ⟨hbounded, hvalid, htimeout, -⟩ := import_within_bounds text
  rw [himport] at hbounded hvalid
  exact ⟨himport, hbounded, hvalid.mpr (.inr ⟨"lan", rfl, by decide⟩), hlargest,
    (htimeout _ _ hlargest).2 settings⟩

end StubDns.ResolvConf
