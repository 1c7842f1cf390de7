import Qualigence.Foundation.Program
import Qualigence.Protocol.JsonGrammar
import Qualigence.Protocol.Value

/-! # The configuration of action values

Where the values of actions are stored is configured by an object that maps references to
filenames. Its text is scanned by hand, so that a reference that is written twice is noticed, and
only its strings are read by `JSON.parse`. The scanner skips every white space there is between
them, and JSON has only four.
-/

namespace Qualigence.Runner.ActionValues

open Protocol.JsonGrammar

/-! ## The scanner -/

/-- The units that `\s` matches. -/
def isWhitespace (u : ℕ) : Bool :=
  (0x9 ≤ u ∧ u ≤ 0xD) ∨ u ∈ [0x20, 0xA0, 0x1680, 0x2028, 0x2029, 0x202F, 0x205F, 0x3000, 0xFEFF] ∨
    (0x2000 ≤ u ∧ u ≤ 0x200A)

example (c : Char) : isWhitespace c.toNat = Protocol.isJsSpace c := rfl

def skipWhitespace (source : List ℕ) : List ℕ := source.dropWhile isWhitespace

/-- The units up to the first quote that is not escaped, with the quote, and what follows. -/
def closingQuote : (escaped : Bool) → List ℕ → Option (List ℕ × List ℕ)
  | _, [] => none
  | escaped, character :: source =>
    if !escaped && character = quote then some ([character], source)
    else
      (closingQuote (!escaped && character = backslash) source).map fun r => (character :: r.1, r.2)

/-- What stands after a backslash. -/
def parseEscape : List ℕ → Option (ℕ × List ℕ)
  | [] => none
  | e :: source =>
    if e = unit 'u' then
      match source with
      | a :: b :: c :: d :: source => do
        let a ← hexUnit a
        let b ← hexUnit b
        let c ← hexUnit c
        let d ← hexUnit d
        return (a * 4096 + b * 256 + c * 16 + d, source)
      | _ => none
    else (escapeUnit e).map fun u => (u, source)

/-- The characters of a text that ends with its closing quote, in no more rounds than it is long. -/
def parseChars : ℕ → List ℕ → Option (List ℕ)
  | 0, _ => none
  | _ + 1, [] => none
  | rounds + 1, u :: source =>
    if u = quote then if source = [] then some [] else none
    else if u = backslash then do
      let (u, source) ← parseEscape source
      let text ← parseChars rounds source
      return u :: text
    else if u < 0x20 then none
    else (parseChars rounds source).map (u :: ·)

/-- `JSON.parse` of a text that starts with a quote, given what follows the quote. -/
def parseLiteral (source : List ℕ) : Option (List ℕ) := parseChars source.length source

/-- The string at the beginning of a text, and what follows it. -/
def parseJsonString (source : List ℕ) : Except String (List ℕ × List ℕ) :=
  match source with
  | [] => .error "Action value configuration entries must be strings."
  | character :: source =>
    if character ≠ quote then .error "Action value configuration entries must be strings."
    else
      match closingQuote false source with
      | none => .error "Action value configuration contains an incomplete string."
      | some (literal, next) =>
        match parseLiteral literal with
        | none => .error "SyntaxError"
        | some value => .ok (value, next)

/-- After the closing brace nothing but white space may follow. -/
def finish (entries : List (List ℕ × List ℕ)) (source : List ℕ) :
    Except String (List (List ℕ × List ℕ)) :=
  if skipWhitespace source ≠ [] then .error "Action value configuration has trailing data."
  else .ok entries

/-- The loop over the entries. The text gets shorter in each round, so that no more rounds than its
length are made. -/
def parseEntries : ℕ → List (List ℕ × List ℕ) → List ℕ → Except String (List (List ℕ × List ℕ))
  | 0, _, _ => .error "Action value configuration is incomplete."
  | rounds + 1, entries, source =>
    if source = [] then .error "Action value configuration is incomplete."
    else do
      let (key, source) ← parseJsonString source
      let source := skipWhitespace source
      if source.head? ≠ some (unit ':') then
        .error "Action value configuration entry is missing a colon."
      else do
        let (value, source) ← parseJsonString (skipWhitespace source.tail)
        if key ∈ entries.map (·.1) then
          .error "Action value configuration contains a duplicate ref."
        else
          let entries := entries ++ [(key, value)]
          let source := skipWhitespace source
          if source.head? = some (unit '\x7d') then finish entries source.tail
          else if source.head? ≠ some (unit ',') then
            .error "Action value configuration entry is missing a comma."
          else parseEntries rounds entries (skipWhitespace source.tail)

def parseConfiguration (source : List ℕ) : Except String (List (List ℕ × List ℕ)) :=
  let source := skipWhitespace source
  if source.head? ≠ some (unit '\x7b') then
    .error "Action value configuration must be an object."
  else
    let source := skipWhitespace source.tail
    if source.head? = some (unit '\x7d') then finish [] source.tail
    else parseEntries source.length [] source

/-! ## The strings -/

/-- An escape is read as it is written. -/
theorem chars_of_parseEscape {s s' text t : List ℕ} {u : ℕ} (h : parseEscape s = some (u, s'))
    (hs : Chars s' text t) : Chars (backslash :: s) (u :: text) t := by
  unfold parseEscape at h
  split at h
  · cases h
  · next e source =>
    split at h
    · next hcode =>
      subst hcode
      split at h
      · next a b c d rest =>
        cases ha : hexUnit a <;> cases hb : hexUnit b <;> cases hc : hexUnit c <;>
          cases hd : hexUnit d <;> simp [ha, hb, hc, hd] at h
        obtain ⟨rfl, rfl⟩ := h
        exact .code ha hb hc hd hs
      · cases h
    · obtain ⟨u', hu, hpair⟩ := Option.map_eq_some_iff.mp h
      obtain ⟨rfl, rfl⟩ := Prod.mk.inj hpair
      exact .escape hu hs

theorem parseEscape_escape {e u : ℕ} (h : escapeUnit e = some u) (s : List ℕ) :
    parseEscape (e :: s) = some (u, s) := by
  have hcode : e ≠ unit 'u' := by
    rintro rfl
    cases h
  unfold parseEscape
  exact (if_neg hcode).trans (by rw [h]; rfl)

theorem chars_of_parseChars {rounds : ℕ} {s text : List ℕ} (h : parseChars rounds s = some text) :
    Chars s text [] := by
  induction rounds generalizing s text with
  | zero => cases h
  | succ rounds ih =>
    cases s with
    | nil => cases h
    | cons u source =>
      rw [parseChars] at h
      split at h
      · next hq =>
        split at h
        · next hend =>
          cases h
          subst hq hend
          exact .close []
        · cases h
      · next hq =>
        split at h
        · next hb =>
          subst hb
          obtain ⟨⟨v, rest⟩, hescape, h⟩ := Option.bind_eq_some_iff.mp h
          obtain ⟨text', htext, h⟩ := Option.bind_eq_some_iff.mp h
          cases h
          exact chars_of_parseEscape hescape (ih htext)
        · next hb =>
          split at h
          · cases h
          · next hu =>
            obtain ⟨text', htext, rfl⟩ := Option.map_eq_some_iff.mp h
            exact .plain (Nat.le_of_not_lt hu) hq hb (ih htext)

theorem parseChars_of_chars {s text : List ℕ} (h : Chars s text []) {rounds : ℕ}
    (hrounds : s.length ≤ rounds) : parseChars rounds s = some text := by
  generalize ht : ([] : List ℕ) = t at h
  induction h generalizing rounds with
  | close t =>
    subst ht
    cases rounds with
    | zero => cases hrounds
    | succ rounds => rfl
  | plain hu hq hb _ ih =>
    cases rounds with
    | zero => cases hrounds
    | succ rounds =>
      rw [parseChars, if_neg hq, if_neg hb, if_neg (Nat.not_lt.mpr hu),
        ih (Nat.le_of_succ_le_succ hrounds) ht]
      rfl
  | @escape e u s text t he _ ih =>
    cases rounds with
    | zero => cases hrounds
    | succ rounds =>
      simp only [List.length_cons] at hrounds
      have hlength : s.length ≤ rounds := by omega
      rw [parseChars, if_neg backslash_ne_quote, if_pos rfl, parseEscape_escape he]
      simp [ih hlength ht]
  | @code a b c d a' b' c' d' s text t ha hb hc hd _ ih =>
    cases rounds with
    | zero => cases hrounds
    | succ rounds =>
      simp only [List.length_cons] at hrounds
      have hlength : s.length ≤ rounds := by omega
      rw [parseChars, if_neg backslash_ne_quote, if_pos rfl]
      simp [parseEscape, ha, hb, hc, hd, ih hlength ht]

/-- Where a string is closed does not depend on what it means. -/
theorem closingQuote_of_chars {s text t : List ℕ} (h : Chars s text t) :
    ∃ literal, closingQuote false s = some (literal, t) ∧ s = literal ++ t ∧
      Chars literal text [] := by
  induction h with
  | close t => exact ⟨[quote], rfl, rfl, .close []⟩
  | @plain u s text t hu hq hb _ ih =>
    obtain ⟨literal, hclose, rfl, hchars⟩ := ih
    refine ⟨u :: literal, ?_, rfl, .plain hu hq hb hchars⟩
    simp [closingQuote, hq, hb, hclose]
  | @escape e u s text t he _ ih =>
    obtain ⟨literal, hclose, rfl, hchars⟩ := ih
    refine ⟨backslash :: e :: literal, ?_, rfl, .escape he hchars⟩
    simp [closingQuote, hclose, backslash_ne_quote]
  | @code a b c d a' b' c' d' s text t ha hb hc hd _ ih =>
    obtain ⟨literal, hclose, rfl, hchars⟩ := ih
    refine ⟨backslash :: unit 'u' :: a :: b :: c :: d :: literal, ?_, rfl,
      .code ha hb hc hd hchars⟩
    simp [closingQuote, hclose, backslash_ne_quote, hexUnit_ne ha, hexUnit_ne hb, hexUnit_ne hc,
      hexUnit_ne hd]

theorem append_of_closingQuote {escaped : Bool} {s literal t : List ℕ}
    (h : closingQuote escaped s = some (literal, t)) : s = literal ++ t := by
  induction s generalizing escaped literal with
  | nil => cases h
  | cons character source ih =>
    rw [closingQuote] at h
    split at h
    · cases h
      rfl
    · obtain ⟨⟨literal', t'⟩, hclose, hpair⟩ := Option.map_eq_some_iff.mp h
      obtain ⟨rfl, rfl⟩ := Prod.mk.inj hpair
      rw [ih hclose, List.cons_append]

/-- The strings are exactly the literals of JSON. -/
theorem parseJsonString_iff {s value t : List ℕ} :
    parseJsonString s = .ok (value, t) ↔ Literal s value t := by
  constructor
  · intro h
    unfold parseJsonString at h
    split at h
    · cases h
    · next character source =>
      split at h
      · cases h
      · next hq =>
        obtain rfl := not_not.mp hq
        cases hclose : closingQuote false source with
        | none => simp [hclose] at h
        | some r =>
          obtain ⟨literal, next⟩ := r
          cases hparse : parseLiteral literal with
          | none => simp [hclose, hparse] at h
          | some text =>
            simp only [hclose, hparse] at h
            cases h
            rw [append_of_closingQuote hclose]
            exact .mk ((chars_of_parseChars hparse).append _)
  · rintro ⟨hchars⟩
    obtain ⟨literal, hclose, -, hliteral⟩ := closingQuote_of_chars hchars
    have hparse : parseLiteral literal = some value :=
      parseChars_of_chars hliteral (Nat.le_refl _)
    simp [parseJsonString, hclose, hparse]

/-! ## The entries -/

theorem quote_not_whitespace : isWhitespace quote = false := by decide

theorem skip_literal {s s' text t : List ℕ} (h : Spaces isWhitespace s s')
    (hs : Literal s' text t) : skipWhitespace s = s' := by
  obtain ⟨hs⟩ := hs
  refine h.dropWhile_eq fun u hu => ?_
  obtain rfl := Option.some.inj hu
  exact quote_not_whitespace

theorem skip_unit {s t : List ℕ} {u : ℕ} (h : Spaces isWhitespace s (u :: t))
    (hu : isWhitespace u = false) : skipWhitespace s = u :: t := by
  refine h.dropWhile_eq fun v hv => ?_
  obtain rfl := Option.some.inj hv
  exact hu

theorem spaces_skip (s : List ℕ) : Spaces isWhitespace s (skipWhitespace s) := spaces_dropWhile s

theorem cons_of_head {s : List ℕ} {u : ℕ} (h : s.head? = some u) : s = u :: s.tail :=
  List.eq_cons_of_mem_head? h

theorem finish_iff {entries result : List (List ℕ × List ℕ)} {s : List ℕ} :
    finish entries s = .ok result ↔ result = entries ∧ Spaces isWhitespace s [] := by
  unfold finish
  constructor
  · intro h
    split at h
    · cases h
    · next hend =>
      cases h
      have hspaces := spaces_skip s
      rw [not_not.mp hend] at hspaces
      exact ⟨rfl, hspaces⟩
  · rintro ⟨rfl, h⟩
    have hend : skipWhitespace s = [] := h.dropWhile_eq (by simp)
    rw [if_neg (not_not.mpr hend)]

/-- What the loop returns was read off the text, entry by entry, and no reference came twice. -/
theorem entries_of_parseEntries {rounds : ℕ} {acc result : List (List ℕ × List ℕ)} {s : List ℕ}
    (h : parseEntries rounds acc s = .ok result) (hacc : (acc.map (·.1)).Nodup) :
    ∃ entries t, result = acc ++ entries ∧ Entries isWhitespace s entries (unit '\x7d' :: t) ∧
      Spaces isWhitespace t [] ∧ (result.map (·.1)).Nodup := by
  induction rounds generalizing acc s with
  | zero => cases h
  | succ rounds ih =>
    rw [parseEntries] at h
    split at h
    · cases h
    obtain ⟨⟨key, s₁⟩, hkey, h⟩ := Foundation.bind_eq_ok.mp h
    dsimp only at h
    split at h
    · cases h
    next hcolon =>
    obtain ⟨⟨value, s₂⟩, hvalue, h⟩ := Foundation.bind_eq_ok.mp h
    dsimp only at h
    split at h
    · cases h
    next hfresh =>
    have hcolon' := spaces_skip s₁
    rw [cons_of_head (not_not.mp hcolon)] at hcolon'
    have hentry : ∀ t, Spaces isWhitespace s₂ t → Entry isWhitespace s (key, value) t := fun t ht =>
      .mk (.done s) (parseJsonString_iff.mp hkey) hcolon' (spaces_skip _)
        (parseJsonString_iff.mp hvalue) ht
    have hnodup : ((acc ++ [(key, value)]).map (·.1)).Nodup := by
      rw [List.map_append, List.nodup_append]
      refine ⟨hacc, List.nodup_singleton _, ?_⟩
      rintro a ha b hb rfl
      rw [List.map_singleton, List.mem_singleton] at hb
      rw [hb] at ha
      exact hfresh ha
    have hafter := spaces_skip s₂
    split at h
    · next hbrace =>
      rw [cons_of_head hbrace] at hafter
      obtain ⟨rfl, hend⟩ := finish_iff.mp h
      exact ⟨[(key, value)], _, rfl, .one (hentry _ hafter), hend, hnodup⟩
    · split at h
      · cases h
      next hcomma =>
      rw [cons_of_head (not_not.mp hcomma)] at hafter
      obtain ⟨entries, t, rfl, hentries, hend, hkeys⟩ := ih h hnodup
      have hskipped : Entries isWhitespace (skipWhitespace s₂).tail entries (unit '\x7d' :: t) :=
        hentries.behind (spaces_skip _)
      exact ⟨(key, value) :: entries, t, List.append_assoc _ _ _,
        .more (hentry _ hafter) hskipped, hend, hkeys⟩

theorem length_lt_of_entry {s t : List ℕ} {e : List ℕ × List ℕ} (h : Entry isWhitespace s e t) :
    t.length < (skipWhitespace s).length := by
  obtain ⟨h₁, hkey, h₂, h₃, htext, h₄⟩ := h
  have hspaces := And.intro h₂.length_le (And.intro h₃.length_le h₄.length_le)
  have hstrings := And.intro hkey.length_lt htext.length_lt
  rw [skip_literal h₁ hkey]
  simp only [List.length_cons] at hspaces
  omega

theorem head_of_entry {s t : List ℕ} {e : List ℕ × List ℕ} (h : Entry isWhitespace s e t) :
    (skipWhitespace s).head? = some quote := by
  obtain ⟨h₁, hkey, -, -, -, -⟩ := h
  rw [skip_literal h₁ hkey]
  cases hkey
  rfl

theorem head_of_entries {s t : List ℕ} {entries : List (List ℕ × List ℕ)}
    (h : Entries isWhitespace s entries t) : (skipWhitespace s).head? = some quote := by
  cases h with
  | one he => exact head_of_entry he
  | more he _ => exact head_of_entry he

/-- One round of the loop, up to what follows the entry. -/
theorem parseEntries_of_entry {rounds : ℕ} {acc : List (List ℕ × List ℕ)} {s t : List ℕ} {u : ℕ}
    {e : List ℕ × List ℕ} (h : Entry isWhitespace s e (u :: t)) (hu : isWhitespace u = false)
    (hfresh : e.1 ∉ acc.map (·.1)) :
    parseEntries (rounds + 1) acc (skipWhitespace s) =
      if u = unit '\x7d' then finish (acc ++ [e]) t
      else if u ≠ unit ',' then .error "Action value configuration entry is missing a comma."
      else parseEntries rounds (acc ++ [e]) (skipWhitespace t) := by
  cases h with
  | @mk s₁ s₂ s₃ s₄ s₅ key text _ h₁ hkey h₂ h₃ htext h₄ =>
    have hne : s₁ ≠ [] := by
      rintro rfl
      cases hkey
    have hcolon : skipWhitespace s₂ = unit ':' :: s₃ := skip_unit h₂ (by decide)
    have hafter : skipWhitespace s₅ = u :: t := skip_unit h₄ hu
    rw [skip_literal h₁ hkey, parseEntries, if_neg hne, parseJsonString_iff.mpr hkey]
    simp only [Foundation.ok_bind, hcolon, List.head?_cons, List.tail_cons, skip_literal h₃ htext,
      parseJsonString_iff.mpr htext, hafter, Option.some.injEq, not_true_eq_false, ne_eq, if_false,
      if_neg hfresh]

theorem parseEntries_of_entries {entries acc : List (List ℕ × List ℕ)} {s t : List ℕ} {rounds : ℕ}
    (h : Entries isWhitespace s entries (unit '\x7d' :: t)) (hend : Spaces isWhitespace t [])
    (hkeys : ((acc ++ entries).map (·.1)).Nodup)
    (hrounds : (skipWhitespace s).length ≤ rounds) :
    parseEntries rounds acc (skipWhitespace s) = .ok (acc ++ entries) := by
  induction entries generalizing acc s rounds with
  | nil => cases h
  | cons e entries ih =>
    have hfresh : e.1 ∉ acc.map (·.1) := by
      intro hmem
      rw [List.map_append, List.nodup_append] at hkeys
      exact hkeys.2.2 _ hmem _ (List.mem_map_of_mem List.mem_cons_self) rfl
    cases rounds with
    | zero =>
      have hhead := head_of_entries h
      rw [List.eq_nil_of_length_eq_zero (Nat.le_zero.mp hrounds)] at hhead
      cases hhead
    | succ rounds =>
      cases h with
      | one he =>
        rw [parseEntries_of_entry he (by decide) hfresh, if_pos rfl]
        exact finish_iff.mpr ⟨rfl, hend⟩
      | @more _ s' _ _ _ he hrest =>
        have hlength := length_lt_of_entry he
        have hskipped := (spaces_skip s').length_le
        rw [List.length_cons] at hlength
        rw [parseEntries_of_entry he (by decide) hfresh, if_neg (by decide), if_neg (by decide),
          ih hrest (by rwa [List.append_assoc]) (by omega), List.append_assoc]
        rfl

/-- The configurations are the objects of strings without a reference that comes twice, with any
white space between their parts. -/
theorem parseConfiguration_iff {source : List ℕ} {entries : List (List ℕ × List ℕ)} :
    parseConfiguration source = .ok entries ↔
      StringObject isWhitespace source entries ∧ (entries.map (·.1)).Nodup := by
  unfold parseConfiguration
  dsimp only
  constructor
  · intro h
    split at h
    · cases h
    next hopen =>
    have hbefore := spaces_skip source
    rw [cons_of_head (not_not.mp hopen)] at hbefore
    have hafter := spaces_skip (skipWhitespace source).tail
    split at h
    · next hbrace =>
      rw [cons_of_head hbrace] at hafter
      obtain ⟨rfl, hend⟩ := finish_iff.mp h
      exact ⟨.empty hbefore hafter hend, List.nodup_nil⟩
    · obtain ⟨entries, t, rfl, hentries, hend, hkeys⟩ :=
        entries_of_parseEntries h List.nodup_nil
      exact ⟨.entries hbefore (hentries.behind hafter) hend, hkeys⟩
  · rintro ⟨hobject, hkeys⟩
    cases hobject with
    | @empty s₁ s₂ h₁ h₂ h₃ =>
      have hopen : skipWhitespace source = unit '\x7b' :: s₁ := skip_unit h₁ (by decide)
      have hbrace : skipWhitespace s₁ = unit '\x7d' :: s₂ := skip_unit h₂ (by decide)
      rw [hopen, if_neg (by simp), List.tail_cons, hbrace,
        if_pos (List.head?_cons)]
      exact finish_iff.mpr ⟨rfl, h₃⟩
    | @entries s₁ _ _ h₁ hs h₃ =>
      have hopen : skipWhitespace source = unit '\x7b' :: s₁ := skip_unit h₁ (by decide)
      have hquote := head_of_entries hs
      rw [hopen, if_neg (by simp), List.tail_cons, hquote, if_neg (by decide)]
      exact parseEntries_of_entries hs h₃ hkeys (Nat.le_refl _)

example : parseConfiguration (['\x7b', '\"', 'a', '\"', ':', '\"', 'b', '\"', ',', '\"', '\\', 'u', '0',
    '0', '6', '1', '\"', ':', '\"', 'c', '\"', '\x7d'].map unit) =
    .error "Action value configuration contains a duplicate ref." := by
  decide

end Qualigence.Runner.ActionValues
