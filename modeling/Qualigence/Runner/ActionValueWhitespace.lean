import Qualigence.Runner.ActionValues

/-! # Where the scanner reads more than JSON

Outside of its strings a configuration may hold white space that JSON does not know. Such a text is
read like the one with plain spaces in its place, and `JSON.parse` refuses it. On every other text
the scanner and `JSON.parse` agree.
-/

namespace Qualigence.Runner.ActionValues

open Protocol.JsonGrammar

/-! ## Plain spaces -/

/-- Where a unit stands: between strings, in a string, or behind a backslash in a string. -/
inductive Place where
  | outside
  | inside
  | escaped

def plainUnit (u : ℕ) : ℕ := if isWhitespace u && !isJsonWhitespace u then unit ' ' else u

/-- The text with a space in the place of every white space outside strings that JSON does not
know. -/
def respaced : Place → List ℕ → List ℕ
  | _, [] => []
  | .outside, u :: s =>
    if u = quote then u :: respaced .inside s else plainUnit u :: respaced .outside s
  | .inside, u :: s =>
    u :: respaced (if u = quote then .outside else if u = backslash then .escaped else .inside) s
  | .escaped, u :: s => u :: respaced .inside s

theorem isWhitespace_of_json {u : ℕ} (h : isJsonWhitespace u = true) : isWhitespace u = true := by
  simp only [isJsonWhitespace, Bool.or_eq_true, decide_eq_true_eq] at h
  obtain ((rfl | rfl) | rfl) | rfl := h <;> decide

theorem plainUnit_of_json {u : ℕ} (h : isJsonWhitespace u = true) : plainUnit u = u := by
  simp [plainUnit, h]

theorem plainUnit_of_not_whitespace {u : ℕ} (h : isWhitespace u = false) : plainUnit u = u := by
  simp [plainUnit, h]

/-- The units that become white space of JSON are the white space. -/
theorem isJsonWhitespace_plainUnit (u : ℕ) : isJsonWhitespace (plainUnit u) = isWhitespace u := by
  cases hjson : isJsonWhitespace u with
  | true => rw [plainUnit_of_json hjson, hjson, isWhitespace_of_json hjson]
  | false =>
    cases hspace : isWhitespace u with
    | true =>
      simp only [plainUnit, hspace, hjson, Bool.not_false, Bool.and_self, if_true]
      decide
    | false => rw [plainUnit_of_not_whitespace hspace, hjson]

theorem eq_of_plainUnit {u v : ℕ} (h : plainUnit u = v) (hv : isJsonWhitespace v = false) :
    u = v := by
  have hspace := isJsonWhitespace_plainUnit u
  rw [h, hv] at hspace
  rw [← h, plainUnit_of_not_whitespace hspace.symm]

theorem respaced_cons {u : ℕ} (hq : u ≠ quote) (s : List ℕ) :
    respaced .outside (u :: s) = plainUnit u :: respaced .outside s :=
  if_neg hq

theorem respaced_quote (s : List ℕ) :
    respaced .outside (quote :: s) = quote :: respaced .inside s :=
  if_pos rfl

theorem respaced_unit {u : ℕ} (hu : isWhitespace u = false) (hq : u ≠ quote) (s : List ℕ) :
    respaced .outside (u :: s) = u :: respaced .outside s := by
  rw [respaced_cons hq, plainUnit_of_not_whitespace hu]

theorem whitespace_ne_quote {u : ℕ} (h : isWhitespace u = true) : u ≠ quote := by
  rintro rfl
  cases h

/-- What is a unit of the plain text was there before, when it is neither white space nor a
quote. -/
theorem cons_of_respaced {s t' : List ℕ} {u : ℕ} (h : respaced .outside s = u :: t')
    (hu : isJsonWhitespace u = false) (hq : u ≠ quote) :
    ∃ t, s = u :: t ∧ respaced .outside t = t' := by
  cases s with
  | nil => cases h
  | cons v s =>
    by_cases hv : v = quote
    · subst hv
      rw [respaced_quote] at h
      exact absurd (List.cons.inj h).1.symm hq
    · rw [respaced_cons hv] at h
      obtain ⟨hunit, hrest⟩ := List.cons.inj h
      exact ⟨s, by rw [eq_of_plainUnit hunit hu], hrest⟩

/-! ## Strings and white space -/

/-- A backslash and what it escapes. -/
theorem respaced_escape (e : ℕ) (s : List ℕ) :
    respaced .inside (backslash :: e :: s) = backslash :: e :: respaced .inside s := rfl

theorem respaced_inside {u : ℕ} (hq : u ≠ quote) (hb : u ≠ backslash) (s : List ℕ) :
    respaced .inside (u :: s) = u :: respaced .inside s := by
  change u :: respaced (if u = quote then .outside else _) s = _
  rw [if_neg hq, if_neg hb]

theorem respaced_hex {u d : ℕ} (h : hexUnit u = some d) (s : List ℕ) :
    respaced .inside (u :: s) = u :: respaced .inside s :=
  respaced_inside (hexUnit_ne h).1 (hexUnit_ne h).2 s

theorem respaced_close (t : List ℕ) :
    respaced .inside (quote :: t) = quote :: respaced .outside t := rfl

/-- The units of a string are left alone. -/
theorem chars_respaced {s text t : List ℕ} (h : Chars s text t) :
    Chars (respaced .inside s) text (respaced .outside t) := by
  induction h with
  | close t =>
    rw [respaced_close]
    exact .close (respaced .outside t)
  | plain hu hq hb _ ih =>
    rw [respaced_inside hq hb]
    exact .plain hu hq hb ih
  | escape he _ ih =>
    rw [respaced_escape]
    exact .escape he ih
  | code ha hb hc hd _ ih =>
    rw [respaced_escape, respaced_hex ha, respaced_hex hb, respaced_hex hc, respaced_hex hd]
    exact .code ha hb hc hd ih

/-- The first unit of a text that starts in a string or behind a backslash. -/
theorem inside_cons {s r : List ℕ} {u : ℕ} (h : respaced .inside s = u :: r) : ∃ s', s = u :: s' ∧
    respaced (if u = quote then .outside else if u = backslash then .escaped else .inside) s' =
      r := by
  cases s with
  | nil => cases h
  | cons v s =>
    obtain ⟨rfl, hrest⟩ := List.cons.inj h
    exact ⟨s, rfl, hrest⟩

theorem inside_plain {s r : List ℕ} {u : ℕ} (h : respaced .inside s = u :: r) (hq : u ≠ quote)
    (hb : u ≠ backslash) : ∃ s', s = u :: s' ∧ respaced .inside s' = r := by
  obtain ⟨s', rfl, hrest⟩ := inside_cons h
  rw [if_neg hq, if_neg hb] at hrest
  exact ⟨s', rfl, hrest⟩

theorem inside_hex {s r : List ℕ} {u d : ℕ} (hu : hexUnit u = some d)
    (h : respaced .inside s = u :: r) : ∃ s', s = u :: s' ∧ respaced .inside s' = r :=
  inside_plain h (hexUnit_ne hu).1 (hexUnit_ne hu).2

theorem inside_escape {s r : List ℕ} {e : ℕ} (h : respaced .inside s = backslash :: e :: r) :
    ∃ s', s = backslash :: e :: s' ∧ respaced .inside s' = r := by
  obtain ⟨s₁, rfl, h₁⟩ := inside_cons h
  rw [if_neg backslash_ne_quote, if_pos rfl] at h₁
  cases s₁ with
  | nil => cases h₁
  | cons e' s₂ =>
    obtain ⟨rfl, hrest⟩ := List.cons.inj h₁
    exact ⟨s₂, rfl, hrest⟩

theorem chars_of_respaced {r text t' : List ℕ} (h : Chars r text t') {s : List ℕ}
    (hs : respaced .inside s = r) : ∃ t, Chars s text t ∧ respaced .outside t = t' := by
  induction h generalizing s with
  | close t =>
    obtain ⟨s', rfl, hrest⟩ := inside_cons hs
    rw [if_pos rfl] at hrest
    exact ⟨s', .close s', hrest⟩
  | plain hu hq hb _ ih =>
    obtain ⟨s', rfl, hrest⟩ := inside_plain hs hq hb
    obtain ⟨t, hchars, ht⟩ := ih hrest
    exact ⟨t, .plain hu hq hb hchars, ht⟩
  | escape he _ ih =>
    obtain ⟨s', rfl, hrest⟩ := inside_escape hs
    obtain ⟨t, hchars, ht⟩ := ih hrest
    exact ⟨t, .escape he hchars, ht⟩
  | code ha hb hc hd _ ih =>
    obtain ⟨s₁, rfl, h₁⟩ := inside_escape hs
    obtain ⟨s₂, rfl, h₂⟩ := inside_hex ha h₁
    obtain ⟨s₃, rfl, h₃⟩ := inside_hex hb h₂
    obtain ⟨s₄, rfl, h₄⟩ := inside_hex hc h₃
    obtain ⟨s₅, rfl, h₅⟩ := inside_hex hd h₄
    obtain ⟨t, hchars, ht⟩ := ih h₅
    exact ⟨t, .code ha hb hc hd hchars, ht⟩

theorem literal_respaced_iff {s text t' : List ℕ} :
    Literal (respaced .outside s) text t' ↔
      ∃ t, Literal s text t ∧ respaced .outside t = t' := by
  constructor
  · intro h
    generalize hr : respaced .outside s = r at h
    obtain ⟨hchars⟩ := h
    cases s with
    | nil => cases hr
    | cons u s =>
      by_cases hu : u = quote
      · subst hu
        rw [respaced_quote] at hr
        obtain ⟨t, hs, ht⟩ := chars_of_respaced hchars (List.cons.inj hr).2
        exact ⟨t, .mk hs, ht⟩
      · rw [respaced_cons hu] at hr
        exact absurd (eq_of_plainUnit (List.cons.inj hr).1 (by decide)) hu
  · rintro ⟨t, ⟨hchars⟩, rfl⟩
    rw [respaced_quote]
    exact .mk (chars_respaced hchars)

theorem spaces_respaced_iff {s t' : List ℕ} :
    Spaces isJsonWhitespace (respaced .outside s) t' ↔
      ∃ t, Spaces isWhitespace s t ∧ respaced .outside t = t' := by
  constructor
  · intro h
    generalize hr : respaced .outside s = r at h
    induction h generalizing s with
    | done t => exact ⟨s, .done s, hr⟩
    | @more u r t hu _ ih =>
      cases s with
      | nil => cases hr
      | cons v s =>
        by_cases hv : v = quote
        · subst hv
          rw [respaced_quote] at hr
          exact absurd (List.cons.inj hr).1.symm (whitespace_ne_quote (isWhitespace_of_json hu))
        · rw [respaced_cons hv] at hr
          obtain ⟨rfl, hrest⟩ := List.cons.inj hr
          rw [isJsonWhitespace_plainUnit] at hu
          obtain ⟨t, hspaces, ht⟩ := ih hrest
          exact ⟨t, .more hu hspaces, ht⟩
  · rintro ⟨t, h, rfl⟩
    induction h with
    | done t => exact .done _
    | @more u s t hu _ ih =>
      rw [respaced_cons (whitespace_ne_quote hu)]
      exact .more (by rwa [isJsonWhitespace_plainUnit]) ih

/-- White space before a unit that belongs to the object. -/
theorem spaces_unit_iff {s t' : List ℕ} {u : ℕ} (hu : isWhitespace u = false) (hq : u ≠ quote) :
    Spaces isJsonWhitespace (respaced .outside s) (u :: t') ↔
      ∃ t, Spaces isWhitespace s (u :: t) ∧ respaced .outside t = t' := by
  rw [spaces_respaced_iff]
  constructor
  · rintro ⟨r, hspaces, hr⟩
    have hjson : isJsonWhitespace u = false := by
      rw [← plainUnit_of_not_whitespace hu, isJsonWhitespace_plainUnit, hu]
    obtain ⟨t, rfl, ht⟩ := cons_of_respaced hr hjson hq
    exact ⟨t, hspaces, ht⟩
  · rintro ⟨t, hspaces, rfl⟩
    exact ⟨u :: t, hspaces, respaced_unit hu hq t⟩

/-! ## Objects -/

theorem entry_respaced_iff {s t' : List ℕ} {e : List ℕ × List ℕ} :
    Entry isJsonWhitespace (respaced .outside s) e t' ↔
      ∃ t, Entry isWhitespace s e t ∧ respaced .outside t = t' := by
  constructor
  · rintro ⟨h₁, hkey, h₂, h₃, htext, h₄⟩
    obtain ⟨s₁, g₁, rfl⟩ := spaces_respaced_iff.mp h₁
    obtain ⟨s₂, gkey, rfl⟩ := literal_respaced_iff.mp hkey
    obtain ⟨s₃, g₂, rfl⟩ := (spaces_unit_iff (by decide) (by decide)).mp h₂
    obtain ⟨s₄, g₃, rfl⟩ := spaces_respaced_iff.mp h₃
    obtain ⟨s₅, gtext, rfl⟩ := literal_respaced_iff.mp htext
    obtain ⟨t, g₄, ht⟩ := spaces_respaced_iff.mp h₄
    exact ⟨t, .mk g₁ gkey g₂ g₃ gtext g₄, ht⟩
  · rintro ⟨t, ⟨h₁, hkey, h₂, h₃, htext, h₄⟩, rfl⟩
    exact .mk (spaces_respaced_iff.mpr ⟨_, h₁, rfl⟩) (literal_respaced_iff.mpr ⟨_, hkey, rfl⟩)
      ((spaces_unit_iff (by decide) (by decide)).mpr ⟨_, h₂, rfl⟩)
      (spaces_respaced_iff.mpr ⟨_, h₃, rfl⟩) (literal_respaced_iff.mpr ⟨_, htext, rfl⟩)
      (spaces_respaced_iff.mpr ⟨_, h₄, rfl⟩)

/-- An entry before a unit that belongs to the object. -/
theorem entry_unit_iff {s t' : List ℕ} {e : List ℕ × List ℕ} {u : ℕ} (hu : isWhitespace u = false)
    (hq : u ≠ quote) :
    Entry isJsonWhitespace (respaced .outside s) e (u :: t') ↔
      ∃ t, Entry isWhitespace s e (u :: t) ∧ respaced .outside t = t' := by
  rw [entry_respaced_iff]
  constructor
  · rintro ⟨r, hentry, hr⟩
    have hjson : isJsonWhitespace u = false := by
      rw [← plainUnit_of_not_whitespace hu, isJsonWhitespace_plainUnit, hu]
    obtain ⟨t, rfl, ht⟩ := cons_of_respaced hr hjson hq
    exact ⟨t, hentry, ht⟩
  · rintro ⟨t, hentry, rfl⟩
    exact ⟨u :: t, hentry, respaced_unit hu hq t⟩

theorem entries_respaced_iff {entries : List (List ℕ × List ℕ)} {s t' : List ℕ} :
    Entries isJsonWhitespace (respaced .outside s) entries (unit '\x7d' :: t') ↔
      ∃ t, Entries isWhitespace s entries (unit '\x7d' :: t) ∧ respaced .outside t = t' := by
  induction entries generalizing s with
  | nil =>
    constructor
    · intro h
      cases h
    · rintro ⟨t, h, -⟩
      cases h
  | cons e entries ih =>
    constructor
    · intro h
      cases h with
      | one he =>
        obtain ⟨t, hentry, ht⟩ := (entry_unit_iff (by decide) (by decide)).mp he
        exact ⟨t, .one hentry, ht⟩
      | more he hrest =>
        obtain ⟨s', hentry, rfl⟩ := (entry_unit_iff (by decide) (by decide)).mp he
        obtain ⟨t, hentries, ht⟩ := ih.mp hrest
        exact ⟨t, .more hentry hentries, ht⟩
    · rintro ⟨t, h, rfl⟩
      cases h with
      | one he => exact .one ((entry_unit_iff (by decide) (by decide)).mpr ⟨t, he, rfl⟩)
      | more he hrest =>
        exact .more ((entry_unit_iff (by decide) (by decide)).mpr ⟨_, he, rfl⟩)
          (ih.mpr ⟨t, hrest, rfl⟩)

/-- A text that is an object of strings with any white space is one with plain spaces. -/
theorem stringObject_respaced_iff {s : List ℕ} {entries : List (List ℕ × List ℕ)} :
    StringObject isJsonWhitespace (respaced .outside s) entries ↔
      StringObject isWhitespace s entries := by
  have hend {t : List ℕ} (h : respaced .outside t = []) : t = [] := by
    cases t with
    | nil => rfl
    | cons u t =>
      by_cases hu : u = quote
      · subst hu
        rw [respaced_quote] at h
        cases h
      · rw [respaced_cons hu] at h
        cases h
  constructor
  · intro h
    cases h with
    | empty h₁ h₂ h₃ =>
      obtain ⟨s₁, g₁, rfl⟩ := (spaces_unit_iff (by decide) (by decide)).mp h₁
      obtain ⟨s₂, g₂, rfl⟩ := (spaces_unit_iff (by decide) (by decide)).mp h₂
      obtain ⟨t, g₃, ht⟩ := spaces_respaced_iff.mp h₃
      obtain rfl := hend ht
      exact .empty g₁ g₂ g₃
    | entries h₁ hs h₃ =>
      obtain ⟨s₁, g₁, rfl⟩ := (spaces_unit_iff (by decide) (by decide)).mp h₁
      obtain ⟨s₂, gs, rfl⟩ := entries_respaced_iff.mp hs
      obtain ⟨t, g₃, ht⟩ := spaces_respaced_iff.mp h₃
      obtain rfl := hend ht
      exact .entries g₁ gs g₃
  · intro h
    cases h with
    | empty h₁ h₂ h₃ =>
      exact .empty ((spaces_unit_iff (by decide) (by decide)).mpr ⟨_, h₁, rfl⟩)
        ((spaces_unit_iff (by decide) (by decide)).mpr ⟨_, h₂, rfl⟩)
        (spaces_respaced_iff.mpr ⟨_, h₃, rfl⟩)
    | entries h₁ hs h₃ =>
      exact .entries ((spaces_unit_iff (by decide) (by decide)).mpr ⟨_, h₁, rfl⟩)
        (entries_respaced_iff.mpr ⟨_, hs, rfl⟩) (spaces_respaced_iff.mpr ⟨_, h₃, rfl⟩)

/-! ## Texts that have plain spaces already -/

theorem respaced_of_chars {s text t : List ℕ} (h : Chars s text t)
    (ht : respaced .outside t = t) : respaced .inside s = s := by
  induction h with
  | close t => rw [respaced_close, ht]
  | plain hu hq hb _ ih => rw [respaced_inside hq hb, ih ht]
  | escape he _ ih => rw [respaced_escape, ih ht]
  | code ha hb hc hd _ ih =>
    rw [respaced_escape, respaced_hex ha, respaced_hex hb, respaced_hex hc, respaced_hex hd, ih ht]

theorem respaced_of_literal {s text t : List ℕ} (h : Literal s text t)
    (ht : respaced .outside t = t) : respaced .outside s = s := by
  obtain ⟨hchars⟩ := h
  rw [respaced_quote, respaced_of_chars hchars ht]

theorem respaced_of_spaces {s t : List ℕ} (h : Spaces isJsonWhitespace s t)
    (ht : respaced .outside t = t) : respaced .outside s = s := by
  induction h with
  | done t => exact ht
  | more hu _ ih =>
    rw [respaced_cons (whitespace_ne_quote (isWhitespace_of_json hu)), plainUnit_of_json hu, ih ht]

theorem respaced_of_entry {s t : List ℕ} {e : List ℕ × List ℕ} (h : Entry isJsonWhitespace s e t)
    (ht : respaced .outside t = t) : respaced .outside s = s := by
  obtain ⟨h₁, hkey, h₂, h₃, htext, h₄⟩ := h
  have hvalue := respaced_of_spaces h₃ (respaced_of_literal htext (respaced_of_spaces h₄ ht))
  have hcolon := respaced_of_spaces h₂
    (by rw [respaced_unit (by decide) (by decide), hvalue])
  exact respaced_of_spaces h₁ (respaced_of_literal hkey hcolon)

theorem respaced_of_entries {s t : List ℕ} {entries : List (List ℕ × List ℕ)}
    (h : Entries isJsonWhitespace s entries t) (ht : respaced .outside t = t) :
    respaced .outside s = s := by
  induction h with
  | one he => exact respaced_of_entry he ht
  | more he _ ih =>
    exact respaced_of_entry he (by rw [respaced_unit (by decide) (by decide), ih ht])

/-- A document of JSON has no other white space outside its strings. -/
theorem respaced_of_stringObject {s : List ℕ} {entries : List (List ℕ × List ℕ)}
    (h : StringObject isJsonWhitespace s entries) : respaced .outside s = s := by
  cases h with
  | empty h₁ h₂ h₃ =>
    have hclose := respaced_of_spaces h₂
      (by rw [respaced_unit (by decide) (by decide), respaced_of_spaces h₃ rfl])
    exact respaced_of_spaces h₁ (by rw [respaced_unit (by decide) (by decide), hclose])
  | entries h₁ hs h₃ =>
    have hclose := respaced_of_entries hs
      (by rw [respaced_unit (by decide) (by decide), respaced_of_spaces h₃ rfl])
    exact respaced_of_spaces h₁ (by rw [respaced_unit (by decide) (by decide), hclose])

/-! ## Exactness -/

/-- The text is a JSON document that is an object of strings, and no reference is written twice. -/
def Configures (source : List ℕ) (entries : List (List ℕ × List ℕ)) : Prop :=
  Document source (.object (stringMembers entries)) ∧ (entries.map (·.1)).Nodup

/-- On this text the scanner succeeds as it should, and returns what the document says. -/
def Exact (source : List ℕ) : Prop :=
  ∀ entries, parseConfiguration source = .ok entries ↔ Configures source entries

/-- The scanner reads the text as the document with plain spaces. -/
theorem parseConfiguration_respaced {source : List ℕ} {entries : List (List ℕ × List ℕ)} :
    parseConfiguration source = .ok entries ↔ Configures (respaced .outside source) entries := by
  rw [parseConfiguration_iff, Configures, ← stringObject_iff, stringObject_respaced_iff]

/-- The scanner is exact unless white space that JSON does not know, between the strings of the
text, is all that keeps it from being a configuration. -/
theorem exact_iff (source : List ℕ) :
    Exact source ↔ respaced .outside source = source ∨
      ¬ ∃ entries, Configures (respaced .outside source) entries := by
  constructor
  · intro hexact
    by_contra hnot
    obtain ⟨hspaces, hconfigures⟩ := not_or.mp hnot
    obtain ⟨entries, hentries⟩ := not_not.mp hconfigures
    have hdocument := (hexact entries).mp (parseConfiguration_respaced.mpr hentries)
    exact hspaces (respaced_of_stringObject (stringObject_iff.mpr hdocument.1))
  · rintro (hplain | hnone) entries
    · rw [parseConfiguration_respaced, hplain]
    · rw [parseConfiguration_respaced]
      constructor
      · intro h
        exact absurd ⟨entries, h⟩ hnone
      · intro h
        have hplain := respaced_of_stringObject (stringObject_iff.mpr h.1)
        rw [hplain] at hnone
        exact absurd ⟨entries, h⟩ hnone

/-- A no-break space before an object is read over, although no document of JSON starts with it. -/
theorem noBreakSpace_read : ¬ Exact [0xA0, unit '\x7b', unit '\x7d'] := by
  intro hexact
  have hparsed : parseConfiguration [0xA0, unit '\x7b', unit '\x7d'] = .ok [] := by decide
  have hdocument := ((hexact []).mp hparsed).1
  exact absurd (respaced_of_stringObject (stringObject_iff.mpr hdocument)) (by decide)

end Qualigence.Runner.ActionValues
