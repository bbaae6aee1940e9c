import Mathlib.Data.List.Induction
import Mathlib.Logic.Relation
import StubDns.Proofs.ResolvConf.Lines

/-! Joined texts. What is imported from two texts, one behind the other, comes from what is imported
from each: the first name server counts, and for all else the last line that sets it. Lines that say
nothing are nowhere seen, nor is how a line ends. -/
namespace StubDns

section
variable {α β : Type} {set? : α → Option β} {items later : List α}

/-- The last value that is set. -/
def lastSet (set? : α → Option β) (items : List α) : Option β := (items.filterMap set?).getLast?

theorem lastSet_append :
    lastSet set? (items ++ later) = (lastSet set? later).or (lastSet set? items) := by
  rw [lastSet, List.filterMap_append, List.getLast?_append]
  rfl

theorem lastSet_concat (item : α) :
    lastSet set? (items ++ [item]) = (set? item).or (lastSet set? items) := by
  rw [lastSet_append]
  congr 1
  cases hset : set? item <;> simp [lastSet, hset]

theorem isSome_lastSet :
    (lastSet set? items).isSome = true ↔ ∃ item ∈ items, (set? item).isSome = true := by
  rw [lastSet, List.getLast?_isSome, ne_eq, List.filterMap_eq_nil_iff]
  constructor
  · intro h
    by_contra hnone
    apply h
    intro item hitem
    by_contra hsome
    exact hnone ⟨item, hitem, Option.isSome_iff_ne_none.mpr hsome⟩
  · rintro ⟨item, hitem, hsome⟩ hnone
    rw [hnone item hitem] at hsome
    cases hsome

/-- What the later items set is what they all set; else the earlier ones decide. -/
theorem getD_lastSet_append {decides : Prop}
    (h : decides ↔ (lastSet set? later).isSome = true) (old : β) :
    (decides → (lastSet set? (items ++ later)).getD old = (lastSet set? later).getD old) ∧
    (¬ decides → (lastSet set? (items ++ later)).getD old = (lastSet set? items).getD old) := by
  rw [h, lastSet_append]
  cases lastSet set? later with
  | none => exact ⟨nofun, fun _ => rfl⟩
  | some value => exact ⟨fun _ => rfl, fun hnot => absurd rfl hnot⟩

end

namespace ResolvConf

/-- The wait that a number sets. -/
def Tuning.wait? : Tuning → Option UInt64
  | .timeout seconds => some (UInt64.ofNat (min (max seconds 1) 30 * 1000))
  | .attempts _ => none

def Tuning.attempts? : Tuning → Option UInt32
  | .timeout _ => none
  | .attempts count => some (UInt32.ofNat (min (max count 1) 5))

namespace Directive

def server? : Directive → Option IPAddress
  | .nameserver address => address.map .v4
  | _ => none

/-- The suffix that a directive sets, which may be none. -/
def suffix? : Directive → Option (Option String)
  | .suffix name => some (name.map String.ofList)
  | _ => none

/-- What the last number of its kind on a line of options sets. -/
def tuned? {β : Type} (read? : Tuning → Option β) : Directive → Option β
  | .options tunings => lastSet read? tunings
  | _ => none

end Directive

theorem foldl_tune_eq (tunings : List Tuning) (settings : Settings) :
    tunings.foldl tune settings =
      { settings with
        minWaitMs := (lastSet Tuning.wait? tunings).getD settings.minWaitMs
        attempts := (lastSet Tuning.attempts? tunings).getD settings.attempts } := by
  induction tunings using List.reverseRecOn with
  | nil => rfl
  | append_singleton tunings tuning ih =>
    rw [List.foldl_concat, ih, lastSet_concat, lastSet_concat, Option.getD_or, Option.getD_or]
    cases tuning <;> rfl

theorem apply_eq (settings : Settings) (directive : Directive) :
    apply settings directive =
      { settings with
        nameserver := settings.nameserver.or directive.server?
        search := directive.suffix?.getD settings.search
        minWaitMs := (directive.tuned? Tuning.wait?).getD settings.minWaitMs
        attempts := (directive.tuned? Tuning.attempts?).getD settings.attempts } := by
  cases directive with
  | options tunings =>
    rw [apply, foldl_tune_eq]
    simp [Directive.server?, Directive.suffix?, Directive.tuned?]
  | _ => simp [apply, Directive.server?, Directive.suffix?, Directive.tuned?]

/-- What directives make of settings, read off each field at once. -/
theorem foldl_apply_eq (directives : List Directive) (settings : Settings) :
    directives.foldl apply settings =
      { settings with
        nameserver := settings.nameserver.or (directives.findSome? Directive.server?)
        search := (lastSet Directive.suffix? directives).getD settings.search
        minWaitMs := (lastSet (Directive.tuned? Tuning.wait?) directives).getD settings.minWaitMs
        attempts :=
          (lastSet (Directive.tuned? Tuning.attempts?) directives).getD settings.attempts } := by
  -- the last one comes first, as it decides all but the name server
  induction directives using List.reverseRecOn with
  | nil =>
    rw [List.foldl_nil, List.findSome?_nil, Option.or_none]
    rfl
  | append_singleton directives directive ih =>
    simp only [List.foldl_concat, ih, apply_eq, lastSet_concat, Option.getD_or,
      List.findSome?_append, Option.or_assoc, List.findSome?_singleton]

/-- The lines of a text. -/
def lines (text : String) : List (List Char) := text.toList.splitOn '\n'

/-- Some line says what the suffix is, or that there is none. -/
def SetsSuffix (text : String) : Prop :=
  ∃ line ∈ lines text, (words line).head? = some "domain".toList ∨
    (words line).head? = some "search".toList

/-- Some line of options has one with this label and a number that fits. -/
def SetsOption (label : String) (bound : Nat) (text : String) : Prop :=
  ∃ line ∈ lines text, (words line).head? = some "options".toList ∧
    ∃ option ∈ (words line).tail, ∃ n, IsOption label bound option n

theorem Directive.isSome_suffix?_iff {directive : Directive} :
    directive.suffix?.isSome = true ↔ ∃ name, directive = .suffix name := by
  cases directive <;> simp [suffix?]

theorem Directive.isSome_tuned?_iff {β : Type} {read? : Tuning → Option β}
    {directive : Directive} : (directive.tuned? read?).isSome = true ↔
      ∃ tunings, directive = .options tunings ∧ (lastSet read? tunings).isSome = true := by
  cases directive <;> simp [tuned?]

theorem isSome_suffix?_ofLine {line : List Char} :
    (Directive.ofLine line).suffix?.isSome = true ↔
      (words line).head? = some "domain".toList ∨ (words line).head? = some "search".toList := by
  rw [Directive.isSome_suffix?_iff]
  constructor
  · rintro ⟨name, hname⟩
    obtain ⟨keyword, values, hwords, hkeyword, -⟩ := ofLine_eq_suffix_iff.mp hname
    rw [hwords, List.head?_cons, Option.some.injEq, Option.some.injEq]
    exact hkeyword
  · rintro (hhead | hhead)
    all_goals obtain ⟨values, hwords⟩ := List.head?_eq_some_iff.mp hhead
    · exact ⟨_, ofLine_eq_suffix_iff.mpr ⟨_, values, hwords, .inl rfl, rfl⟩⟩
    · exact ⟨_, ofLine_eq_suffix_iff.mpr ⟨_, values, hwords, .inr rfl, rfl⟩⟩

theorem isSome_tuned?_ofLine {β : Type} {read? : Tuning → Option β} {line : List Char} :
    ((Directive.ofLine line).tuned? read?).isSome = true ↔
      (words line).head? = some "options".toList ∧
        ∃ option ∈ (words line).tail, ∃ tuning, tuning? option = some tuning ∧
          (read? tuning).isSome = true := by
  rw [Directive.isSome_tuned?_iff]
  constructor
  · rintro ⟨tunings, hoptions, hlast⟩
    obtain ⟨values, hwords, rfl⟩ := ofLine_eq_options_iff.mp hoptions
    obtain ⟨tuning, htuning, hsome⟩ := isSome_lastSet.mp hlast
    obtain ⟨option, hoption, hread⟩ := List.mem_filterMap.mp htuning
    rw [hwords]
    exact ⟨rfl, option, hoption, tuning, hread, hsome⟩
  · rintro ⟨hhead, option, hoption, tuning, hread, hsome⟩
    obtain ⟨values, hwords⟩ := List.head?_eq_some_iff.mp hhead
    rw [hwords, List.tail_cons] at hoption
    exact ⟨_, ofLine_eq_options_iff.mpr ⟨values, hwords, rfl⟩,
      isSome_lastSet.mpr ⟨tuning, List.mem_filterMap.mpr ⟨option, hoption, hread⟩, hsome⟩⟩

theorem exists_mem_directives {does : Directive → Prop} {text : String} :
    (∃ directive ∈ directives text.toList, does directive) ↔
      ∃ line ∈ lines text, does (.ofLine line) := by
  constructor
  · rintro ⟨directive, hdirective, hdoes⟩
    obtain ⟨line, hline, rfl⟩ := List.mem_map.mp hdirective
    exact ⟨line, hline, hdoes⟩
  · rintro ⟨line, hline, hdoes⟩
    exact ⟨_, List.mem_map_of_mem hline, hdoes⟩

theorem setsSuffix_iff (text : String) : SetsSuffix text ↔
    (lastSet Directive.suffix? (directives text.toList)).isSome = true := by
  rw [isSome_lastSet, exists_mem_directives]
  simp only [isSome_suffix?_ofLine]
  rfl

theorem isSome_wait?_iff (option : List Char) :
    (∃ tuning, tuning? option = some tuning ∧ (Tuning.wait? tuning).isSome = true) ↔
      ∃ n, IsOption "timeout:" UInt64.size option n := by
  constructor
  · rintro ⟨tuning, hoption, hsome⟩
    cases tuning with
    | timeout seconds => exact ⟨seconds, tuning?_eq_timeout_iff.mp hoption⟩
    | attempts => cases hsome
  · rintro ⟨seconds, hoption⟩
    exact ⟨.timeout seconds, tuning?_eq_timeout_iff.mpr hoption, rfl⟩

theorem isSome_attempts?_iff (option : List Char) :
    (∃ tuning, tuning? option = some tuning ∧ (Tuning.attempts? tuning).isSome = true) ↔
      ∃ n, IsOption "attempts:" UInt32.size option n := by
  constructor
  · rintro ⟨tuning, hoption, hsome⟩
    cases tuning with
    | timeout => cases hsome
    | attempts count => exact ⟨count, tuning?_eq_attempts_iff.mp hoption⟩
  · rintro ⟨count, hoption⟩
    exact ⟨.attempts count, tuning?_eq_attempts_iff.mpr hoption, rfl⟩

theorem setsOption_iff {β : Type} {read? : Tuning → Option β} {label : String} {bound : Nat}
    (hread : ∀ option, (∃ tuning, tuning? option = some tuning ∧ (read? tuning).isSome = true) ↔
      ∃ n, IsOption label bound option n) (text : String) :
    SetsOption label bound text ↔
      (lastSet (Directive.tuned? read?) (directives text.toList)).isSome = true := by
  rw [isSome_lastSet, exists_mem_directives]
  simp only [isSome_tuned?_ofLine, hread]
  rfl

theorem directives_join (front back : String) : directives (front ++ "\n" ++ back).toList =
    directives front.toList ++ directives back.toList := by
  have htext : (front ++ "\n" ++ back).toList = front.toList ++ '\n' :: back.toList := by
    rw [String.toList_append, String.toList_append, List.append_assoc]
    rfl
  rw [directives, htext, List.splitOn_append_cons_self, List.map_append]
  rfl

theorem directives_of_not_mem {line : List Char} (h : '\n' ∉ line) :
    directives line = [.ofLine line] := by
  rw [directives, List.splitOn_eq_singleton h]
  rfl

theorem directives_append_return (text : List Char) :
    directives (text ++ ['\r']) = directives text := by
  have hreturn : '\n' ∉ ['\r'] := by decide
  obtain ⟨before, last, htext, hmore⟩ := splitOn_append_of_not_mem hreturn text
  have hlast : Directive.ofLine (last ++ ['\r']) = Directive.ofLine last :=
    congrArg Directive.ofFields (words_append_return last)
  rw [directives, directives, htext, hmore, List.map_append, List.map_append, List.map_singleton,
    List.map_singleton, hlast]

/-- What `whole` is where `back` was imported from the text behind and `front` from the one before:
the text behind decides what it sets. -/
structure Joins (behind : String) (front back whole : Settings) : Prop where
  nameserver : whole.nameserver = front.nameserver.or back.nameserver
  search : (SetsSuffix behind → whole.search = back.search) ∧
    (¬ SetsSuffix behind → whole.search = front.search)
  attempts : (SetsOption "attempts:" UInt32.size behind → whole.attempts = back.attempts) ∧
    (¬ SetsOption "attempts:" UInt32.size behind → whole.attempts = front.attempts)
  minWait : (SetsOption "timeout:" UInt64.size behind → whole.minWaitMs = back.minWaitMs) ∧
    (¬ SetsOption "timeout:" UInt64.size behind → whole.minWaitMs = front.minWaitMs)
  port : whole.port = 53
  links : whole.links = []

theorem joins_append (first second : String) :
    Joins second (.ofResolvConf first) (.ofResolvConf second)
      (.ofResolvConf (first ++ "\n" ++ second)) := by
  unfold Settings.ofResolvConf
  rw [directives_join, foldl_apply_eq, foldl_apply_eq, foldl_apply_eq]
  constructor
  case nameserver =>
    simp only [List.findSome?_append, Option.none_or]
  case search => exact getD_lastSet_append (setsSuffix_iff second) _
  case attempts => exact getD_lastSet_append (setsOption_iff isSome_attempts?_iff second) _
  case minWait => exact getD_lastSet_append (setsOption_iff isSome_wait?_iff second) _
  case port | links => rfl

/-- A line that says nothing. -/
inductive Mute (line : List Char) : Prop
  | blank : (∀ c ∈ line, isBlank c = true) → Mute line
  | comment (indent rest : List Char) (sign : Char) : line = indent ++ sign :: rest →
      (∀ c ∈ indent, isBlank c = true) → sign = '#' ∨ sign = ';' → Mute line
  | unknown (keyword : List Char) : (words line).head? = some keyword →
      keyword ≠ "nameserver".toList → keyword ≠ "domain".toList → keyword ≠ "search".toList →
      keyword ≠ "options".toList → Mute line

theorem Mute.ofLine_eq {line : List Char} (h : Mute line) : Directive.ofLine line = .unknown := by
  change Directive.ofFields (words line) = .unknown
  cases h with
  | blank hblank =>
    have hwords : words line = [] := by
      apply fields_of_blank
      intro c hc
      exact hblank c ((List.takeWhile_prefix _).subset hc)
    rw [hwords]
    rfl
  | comment indent rest sign hline hindent hsign =>
    have hstops : (sign :: rest).takeWhile (!isComment ·) = [] := by
      rcases hsign with rfl | rfl <;> rfl
    have hwords : words line = [] := by
      apply fields_of_blank
      intro c hc
      apply hindent
      rw [hline, List.takeWhile_append, hstops, List.append_nil] at hc
      split at hc
      · exact hc
      · exact (List.takeWhile_prefix _).subset hc
    rw [hwords]
    rfl
  | unknown keyword hhead hserver hdomain hsearch hoptions =>
    obtain ⟨values, hwords⟩ := List.head?_eq_some_iff.mp hhead
    rw [hwords, Directive.ofFields, if_neg hserver, if_neg (not_or.mpr ⟨hdomain, hsearch⟩),
      if_neg hoptions]

/-- A change to a text that changes nothing it says. -/
inductive Retouch : String → String → Prop
  | first (line text : String) : '\n' ∉ line.toList → Mute line.toList →
      Retouch text (line ++ "\n" ++ text)
  | between (line front back : String) : '\n' ∉ line.toList → Mute line.toList →
      Retouch (front ++ "\n" ++ back) (front ++ "\n" ++ line ++ "\n" ++ back)
  | last (line text : String) : '\n' ∉ line.toList → Mute line.toList →
      Retouch text (text ++ "\n" ++ line)
  | lineEnd (front back : String) : Retouch (front ++ "\n" ++ back) (front ++ "\r\n" ++ back)

theorem directives_of_mute {line : List Char} (hline : '\n' ∉ line) (hmute : Mute line) :
    directives line = [.unknown] := by
  rw [directives_of_not_mem hline, hmute.ofLine_eq]

theorem foldl_apply_unknown (front back : List Directive) (settings : Settings) :
    (front ++ .unknown :: back).foldl apply settings = (front ++ back).foldl apply settings := by
  rw [List.foldl_append, List.foldl_append, List.foldl_cons]
  rfl

theorem Retouch.import_eq {text text' : String} (h : Retouch text text') :
    Settings.ofResolvConf text = Settings.ofResolvConf text' := by
  unfold Settings.ofResolvConf
  cases h with
  | first line text hline hmute =>
    rw [directives_join, directives_of_mute hline hmute]
    exact (foldl_apply_unknown [] _ _).symm
  | between line front back hline hmute =>
    rw [directives_join, directives_join, directives_join, directives_of_mute hline hmute,
      List.append_assoc]
    exact (foldl_apply_unknown _ _ _).symm
  | last line text hline hmute =>
    rw [directives_join, directives_of_mute hline hmute, foldl_apply_unknown, List.append_nil]
  | lineEnd front back =>
    have hreturn : "\r\n" = "\r" ++ "\n" := by decide
    have hfront : directives (front ++ "\r").toList = directives front.toList := by
      rw [String.toList_append]
      exact directives_append_return front.toList
    rw [hreturn, ← String.append_assoc, directives_join, directives_join, hfront]

/-- What is imported from joined texts is joined from what is imported from each, and no number of
changes to a text that change nothing it says changes what is imported. -/
theorem import_of_joined_texts (first second : String) :
    Joins second (.ofResolvConf first) (.ofResolvConf second)
      (.ofResolvConf (first ++ "\n" ++ second)) ∧
    ∀ text text', Relation.EqvGen Retouch text text' →
      Settings.ofResolvConf text = Settings.ofResolvConf text' := by
  refine ⟨joins_append first second, ?_⟩
  intro text text' hchanges
  induction hchanges with
  | rel text text' h => exact h.import_eq
  | refl text => rfl
  | symm text text' _ ih => exact ih.symm
  | trans text text' text'' _ _ ih ih' => exact ih.trans ih'

/-- An empty domain behind takes the suffix away, while a number that does not fit leaves the
earlier one. -/
theorem empty_domain_behind_resets :
    let first := "nameserver 10.0.0.1\nsearch lan\noptions timeout:5 attempts:2"
    let second := "nameserver 10.0.0.2\r\ndomain ..# none\noptions attempts:4294967296 timeout:+7"
    let front : Settings :=
      { nameserver := some (.v4 ⟨10, 0, 0, 1⟩), search := some "lan", attempts := 2,
        minWaitMs := 5000 }
    let back : Settings := { nameserver := some (.v4 ⟨10, 0, 0, 2⟩), minWaitMs := 7000 }
    let whole := Settings.ofResolvConf (first ++ "\n" ++ second)
    Settings.ofResolvConf first = front ∧ Settings.ofResolvConf second = back ∧
    whole.nameserver = front.nameserver ∧ whole.search = none ∧ whole.attempts = 2 ∧
    whole.minWaitMs = 7000 ∧
    Settings.ofResolvConf ("; old" ++ "\n" ++ (first ++ "\r\n" ++ second)) = whole := by
  intro first second front back whole
  have hfirst : Settings.ofResolvConf first = front := by decide +kernel
  have hsecond : Settings.ofResolvConf second = back := by decide +kernel
  obtain ⟨hjoins, hsame⟩ := import_of_joined_texts first second
  rw [hfirst, hsecond] at hjoins
  have hsuffix : SetsSuffix second := (setsSuffix_iff second).mpr (by decide +kernel)
  have hattempts : ¬ SetsOption "attempts:" UInt32.size second := by
    rw [setsOption_iff isSome_attempts?_iff]
    decide +kernel
  have hwait : SetsOption "timeout:" UInt64.size second :=
    (setsOption_iff isSome_wait?_iff second).mpr (by decide +kernel)
  have hcomment : Mute "; old".toList :=
    .comment [] " old".toList ';' rfl (List.forall_mem_nil _) (.inr rfl)
  have hretouched := hsame _ _ (.trans _ _ _ (.rel _ _ (.lineEnd first second))
    (.rel _ _ (.first "; old" (first ++ "\r\n" ++ second) (by decide) hcomment)))
  exact ⟨hfirst, hsecond, hjoins.nameserver, hjoins.search.1 hsuffix, hjoins.attempts.2 hattempts,
    hjoins.minWait.1 hwait, hretouched.symm⟩

end ResolvConf
end StubDns
