import Mathlib.Data.List.Infix
import StubDns.Settings.ResolvConf

/-! The lines of a `resolv.conf` text and the words on them. -/
namespace StubDns

variable {α : Type} {p : α → Bool} {text : List Char}

/-- A piece is made of what stands in the text and separates nothing. -/
theorem mem_of_mem_splitOnP {items piece : List α} (h : piece ∈ items.splitOnP p) :
    ∀ item ∈ piece, item ∈ items ∧ p item = false := by
  induction items generalizing piece with
  | nil =>
    rw [List.splitOnP_nil, List.mem_singleton] at h
    subst h
    exact List.forall_mem_nil _
  | cons first items ih =>
    rw [List.splitOnP_cons_eq_if_modifyHead] at h
    split at h
    · rcases List.mem_cons.mp h with rfl | hpiece
      · exact List.forall_mem_nil _
      · intro item hitem
        exact ⟨List.mem_cons_of_mem _ (ih hpiece item hitem).1, (ih hpiece item hitem).2⟩
    · next hfirst =>
      obtain ⟨head, tail, hsplit⟩ := List.exists_cons_of_ne_nil (List.splitOnP_ne_nil p items)
      rw [hsplit, List.modifyHead_cons] at h
      have hpieces : ∀ other ∈ head :: tail, ∀ item ∈ other, item ∈ first :: items ∧
          p item = false := by
        intro other hother item hitem
        rw [← hsplit] at hother
        exact ⟨List.mem_cons_of_mem _ (ih hother item hitem).1, (ih hother item hitem).2⟩
      rcases List.mem_cons.mp h with rfl | hpiece
      · exact List.forall_mem_cons.mpr ⟨⟨List.mem_cons_self, eq_false_of_ne_true hfirst⟩,
          hpieces head List.mem_cons_self⟩
      · exact hpieces piece (List.mem_cons_of_mem _ hpiece)

/-- What follows the last separator grows with the text. -/
theorem splitOn_append_of_not_mem [BEq α] [LawfulBEq α] {separator : α} {more : List α}
    (h : separator ∉ more) (items : List α) : ∃ before last,
      items.splitOn separator = before ++ [last] ∧
      (items ++ more).splitOn separator = before ++ [last ++ more] := by
  induction items with
  | nil => exact ⟨[], [], List.splitOn_nil separator, List.splitOn_eq_singleton h⟩
  | cons first items ih =>
    obtain ⟨before, last, hitems, hmore⟩ := ih
    rw [List.cons_append, List.splitOn_cons_eq_if_modifyHead, List.splitOn_cons_eq_if_modifyHead,
      hitems, hmore]
    split
    · exact ⟨[] :: before, last, rfl, rfl⟩
    · cases before with
      | nil => exact ⟨[], first :: last, rfl, rfl⟩
      | cons head before => exact ⟨(first :: head) :: before, last, rfl, rfl⟩

theorem of_mem_fields {word : List Char} (h : word ∈ fields text) :
    word ≠ [] ∧ ∀ c ∈ word, c ∈ text ∧ isBlank c = false := by
  obtain ⟨hpiece, hsome⟩ := List.mem_filter.mp h
  exact ⟨of_decide_eq_true hsome, mem_of_mem_splitOnP hpiece⟩

theorem fields_append_blank {c : Char} (hc : isBlank c = true) (front back : List Char) :
    fields (front ++ c :: back) = fields front ++ fields back := by
  rw [fields, List.splitOnP_append_cons front back hc, List.filter_append]
  rfl

theorem fields_of_blank (h : ∀ c ∈ text, isBlank c = true) : fields text = [] := by
  induction text with
  | nil => rfl
  | cons c text ih =>
    obtain ⟨hc, htext⟩ := List.forall_mem_cons.mp h
    have hfields := fields_append_blank hc [] text
    rw [List.nil_append, ih htext] at hfields
    exact hfields

namespace ResolvConf

variable {line : List Char}

/-- The words of a line, up to its comment. -/
def words (line : List Char) : List (List Char) := fields (line.takeWhile (!isComment ·))

theorem of_mem_words {word : List Char} (h : word ∈ words line) :
    word ≠ [] ∧ ∀ c ∈ word, isBlank c = false ∧ isComment c = false := by
  obtain ⟨hsome, hword⟩ := of_mem_fields h
  refine ⟨hsome, ?_⟩
  intro c hc
  obtain ⟨hmem, hblank⟩ := hword c hc
  have hplain : (!isComment c) = true := List.all_eq_true.mp List.all_takeWhile c hmem
  exact ⟨hblank, by simpa using hplain⟩

/-- A carriage return at the end of a line is no part of its words. -/
theorem words_append_return (line : List Char) : words (line ++ ['\r']) = words line := by
  unfold words
  rw [List.takeWhile_append]
  split
  · next hall =>
    have hline : line.takeWhile (!isComment ·) = line :=
      (List.takeWhile_prefix _).eq_of_length hall
    have hreturn : ['\r'].takeWhile (!isComment ·) = ['\r'] := by decide
    rw [hline, hreturn, fields_append_blank (by decide) line []]
    exact List.append_nil _
  · rfl

theorem ofLine_eq_suffix_iff {name : Option (List Char)} :
    Directive.ofLine line = .suffix name ↔ ∃ keyword values, words line = keyword :: values ∧
      (keyword = "domain".toList ∨ keyword = "search".toList) ∧
      (values.head?.map dropDots).filter (· ≠ []) = name := by
  change Directive.ofFields (words line) = .suffix name ↔ _
  cases words line with
  | nil =>
    constructor
    · intro h
      cases h
    · rintro ⟨_, _, hwords, _⟩
      cases hwords
  | cons keyword values =>
    constructor
    · intro h
      rw [Directive.ofFields] at h
      split at h
      · cases h
      · split at h
        · next hkeyword => exact ⟨keyword, values, rfl, hkeyword, Directive.suffix.inj h⟩
        · split at h <;> cases h
    · rintro ⟨_, _, hwords, hkeyword, rfl⟩
      cases hwords
      rcases hkeyword with rfl | rfl <;> rfl

theorem ofLine_eq_options_iff {tunings : List Tuning} :
    Directive.ofLine line = .options tunings ↔
      ∃ values, words line = "options".toList :: values ∧ values.filterMap tuning? = tunings := by
  change Directive.ofFields (words line) = .options tunings ↔ _
  cases words line with
  | nil =>
    constructor
    · intro h
      cases h
    · rintro ⟨_, hwords, _⟩
      cases hwords
  | cons keyword values =>
    constructor
    · intro h
      rw [Directive.ofFields] at h
      split at h
      · cases h
      · split at h
        · cases h
        · split at h
          · next hkeyword => exact ⟨values, by rw [hkeyword], Directive.options.inj h⟩
          · cases h
    · rintro ⟨_, hwords, rfl⟩
      cases hwords
      rfl

/-- The option that starts with `label` and goes on with the number `n`. -/
def IsOption (label : String) (bound : Nat) (option : List Char) (n : Nat) : Prop :=
  ∃ digits, option = label.toList ++ digits ∧ unsigned? bound digits = some n

theorem tuning?_eq_timeout_iff {option : List Char} {n : Nat} :
    tuning? option = some (.timeout n) ↔ IsOption "timeout:" UInt64.size option n := by
  unfold tuning? IsOption
  cases hlabel : "timeout:".toList.isPrefixOf? option with
  | some seconds =>
    obtain rfl := List.append_eq_of_isPrefixOf?_eq_some hlabel
    rw [Option.map_eq_some_iff]
    constructor
    · rintro ⟨number, hdigits, htuning⟩
      obtain rfl := Tuning.timeout.inj htuning
      exact ⟨seconds, rfl, hdigits⟩
    · rintro ⟨digits, hoption, hdigits⟩
      rw [← List.append_cancel_left hoption] at hdigits
      exact ⟨n, hdigits, rfl⟩
  | none =>
    constructor
    · intro h
      simp [Option.bind_eq_some_iff] at h
    · rintro ⟨digits, rfl, _⟩
      rw [List.isPrefixOf?_eq_some_iff_append_eq.mpr rfl] at hlabel
      cases hlabel

theorem tuning?_eq_attempts_iff {option : List Char} {n : Nat} :
    tuning? option = some (.attempts n) ↔ IsOption "attempts:" UInt32.size option n := by
  unfold tuning? IsOption
  cases hlabel : "timeout:".toList.isPrefixOf? option with
  | some seconds =>
    obtain rfl := List.append_eq_of_isPrefixOf?_eq_some hlabel
    constructor
    · intro h
      simp [Option.map_eq_some_iff] at h
    · rintro ⟨digits, hoption, _⟩
      have hfirst := congrArg List.head? hoption
      cases hfirst
  | none =>
    constructor
    · intro h
      simp only [Option.bind_eq_bind, Option.bind_eq_some_iff, Option.pure_def,
        Option.some.injEq, Tuning.attempts.injEq] at h
      obtain ⟨digits, hoption, _, hdigits, rfl⟩ := h
      exact ⟨digits, (List.append_eq_of_isPrefixOf?_eq_some hoption).symm, hdigits⟩
    · rintro ⟨digits, rfl, hdigits⟩
      have hrest : "attempts:".toList.isPrefixOf? ("attempts:".toList ++ digits) = some digits :=
        List.isPrefixOf?_eq_some_iff_append_eq.mpr rfl
      simp only [hrest, Option.bind_eq_bind, Option.bind_some, hdigits]
      rfl

end ResolvConf
end StubDns
