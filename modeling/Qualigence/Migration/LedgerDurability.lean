import Qualigence.Migration.LedgerFile

/-! # What the migration ledger keeps

The file is a sequence of lines, each a whole record or a text that is never read, and of a last
part without an end. An append to a file without such a part adds a line that no later append and
no crash changes.
-/

namespace Qualigence.Migration

open Protocol JsValue ScanState

/-! ## Records as texts -/

theorem keys_present (fields : List (String × Option JsValue)) :
    ((present fields).map Prod.fst).Sublist (fields.map Prod.fst) := by
  induction fields with
  | nil => exact List.Sublist.refl []
  | cons f fields ih =>
    obtain ⟨key, v⟩ := f
    cases v with
    | none => exact List.Sublist.cons key ih
    | some v => exact List.Sublist.cons_cons key ih

theorem printedFields_present {fields : List (String × Option JsValue)}
    (h : ∀ f ∈ fields, ∀ v ∈ f.2, Printed v) : PrintedFields (present fields) := by
  induction fields with
  | nil => trivial
  | cons f fields ih =>
    obtain ⟨key, v⟩ := f
    have hrest := ih fun f hf => h f (List.mem_cons_of_mem _ hf)
    cases v with
    | none => exact hrest
    | some v => exact ⟨h _ List.mem_cons_self v rfl, hrest⟩

theorem printed_present {fields : List (String × Option JsValue)}
    (hn : (fields.map Prod.fst).Nodup) (h : ∀ f ∈ fields, ∀ v ∈ f.2, Printed v) :
    Printed (.obj (present fields)) := by
  rw [Printed]
  exact ⟨hn.sublist (keys_present fields), printedFields_present h⟩

@[simp] theorem field_present_cons (key k : String) (v : Option JsValue)
    (fields : List (String × Option JsValue)) :
    field key (present ((k, v) :: fields)) =
      if k = key then v.getD (field key (present fields)) else field key (present fields) := by
  cases v with
  | none =>
    change field key (present fields) = _
    simp
  | some v => rfl

@[simp] theorem field_present_nil (key : String) : field key (present []) = .undefined := rfl

theorem printed_textValue (text : Option String) (v : JsValue) (hv : textValue text = some v) :
    Printed v := by
  obtain ⟨s, -, rfl⟩ := Option.map_eq_some_iff.mp hv
  simp [Printed]

theorem printed_textsValue (texts : List String) : Printed (textsValue texts) := by
  refine Plain.printed _ ?_
  rw [textsValue, Plain, plainItems_iff]
  intro v hv
  obtain ⟨s, -, rfl⟩ := List.mem_map.mp hv
  simp [Plain]

theorem ObservationMigrationResult.printed (r : ObservationMigrationResult) :
    Printed r.toValue := by
  refine printed_present (by simp) ?_
  simp only [List.forall_mem_cons, List.not_mem_nil, false_implies, implies_true, and_true]
  simp only [Option.mem_def, Option.some.injEq, forall_eq', Option.map_eq_some_iff,
    forall_exists_index, and_imp, forall_apply_eq_imp_iff₂, Printed, printed_textsValue,
    implies_true, true_and]
  and_intros <;> exact printed_textValue _

theorem PreV1AssetMetadata.printed (m : PreV1AssetMetadata) : Printed m.toValue := by
  refine printed_present (by simp) ?_
  simp only [List.forall_mem_cons, List.not_mem_nil, false_implies, implies_true, and_true]
  simp only [Option.mem_def, Option.some.injEq, forall_eq', Printed, printed_textsValue, true_and,
    and_true]
  and_intros <;> exact printed_textValue _

theorem LedgerRecord.printed_toValue (r : LedgerRecord) :
    Printed r.toStoredObservationMigration.toValue := by
  refine printed_present (by simp) ?_
  simp only [List.forall_mem_cons, List.not_mem_nil, false_implies, implies_true, and_true]
  refine ⟨?_, r.printed, ?_⟩
  · rintro v ⟨⟩
    exact r.result.printed
  · intro v hv
    obtain ⟨m, -, rfl⟩ := Option.map_eq_some_iff.mp hv
    exact m.printed

/-- The JSON text of a record. -/
def LedgerRecord.text (r : LedgerRecord) : List Char := textOf r.toStoredObservationMigration.toValue

theorem LedgerRecord.objectText (r : LedgerRecord) : ObjectText r.text := by
  have hkey : "result".toList = 'r' :: ['e', 's', 'u', 'l', 't'] := by decide
  exact objectText_textOf hkey (by decide) (by decide) r.printed_toValue

theorem LedgerRecord.not_mem_text (r : LedgerRecord) : '\n' ∉ r.text :=
  not_mem_textOf _ r.printed_toValue

theorem parsedKeyParts_of_identity (identity : ObservationMigrationLookupIdentity) :
    parsedKeyParts ((textValue identity.skillSourceHash).getD .undefined)
      ((identity.skillVersion.map JsValue.int).getD .undefined)
      ((textValue identity.skillAssetHash).getD .undefined) =
        some (skillIdentityKeyParts identity) := by
  obtain ⟨source, version, asset⟩ := identity
  cases source <;> cases version <;> cases asset <;>
    simp [parsedKeyParts, skillIdentityKeyParts, textValue, hashedOrEmpty, hashed, jsText]

/-- A record that was parsed has the key that it was appended with. -/
theorem recordKey_toValue (P : Platform) (r : StoredObservationMigration) :
    recordKey P r.toValue = some (r.key P) := by
  have hparts := parsedKeyParts_of_identity r.result.toObservationMigrationLookupIdentity
  simp only [recordKey, StoredObservationMigration.toValue, ObservationMigrationResult.toValue,
    property, field_present_cons, field_present_nil]
  simp [hashed, hparts, StoredObservationMigration.key]

/-! ## Lines -/

/-- A beginning of an object's text, or what was written behind one. -/
structure Torn (text : List Char) : Prop where
  opens : ∃ cs, text = '\x7b' :: cs
  line : '\n' ∉ text
  unfinished : ((normal 0).scan text).Unfinished

theorem trimChars_of_head {c : Char} (cs : List Char) (hc : isJsSpace c = false) :
    ∃ spaces, c :: cs = Mission.trimChars (c :: cs) ++ spaces ∧ ∀ d ∈ spaces, isJsSpace d := by
  refine ⟨((c :: cs).reverse.takeWhile isJsSpace).reverse, ?_, ?_⟩
  · rw [Mission.trimChars, List.dropWhile_cons_of_neg (by simp [hc]), ← List.reverse_append,
      List.takeWhile_append_dropWhile, List.reverse_reverse]
  · intro d hd
    exact List.mem_takeWhile_imp (List.mem_reverse.mp hd)

/-- A torn text is not read. -/
theorem readLine_torn {text : List Char} (h : Torn text) : readLine text = none := by
  obtain ⟨cs, rfl⟩ := h.opens
  obtain ⟨spaces, he, hspaces⟩ := trimChars_of_head (c := '\x7b') cs (by decide)
  unfold readLine
  split
  · rfl
  next hne =>
  cases hp : parseJson (Mission.trimChars ('\x7b' :: cs)) with
  | none => rfl
  | some v =>
    exfalso
    cases ht : Mission.trimChars ('\x7b' :: cs) with
    | nil => exact hne ht
    | cons d ds =>
      rw [ht] at he hp
      obtain rfl : '\x7b' = d := (List.cons.inj he).1
      have hdone := scan_of_parseJson hp
      have hafter : ∀ spaces : List Char, (∀ d ∈ spaces, isJsSpace d) →
          done.scan spaces = done := by
        intro spaces hs
        induction spaces with
        | nil => rfl
        | cons d spaces ih =>
          rw [scan_cons, show done.next d = done from if_pos (hs d List.mem_cons_self)]
          exact ih fun e he => hs e (List.mem_cons_of_mem d he)
      have hu := h.unfinished
      rw [he, scan_append, hdone, hafter spaces hspaces] at hu
      exact hu

theorem readLine_text (r : LedgerRecord) :
    readLine r.text = some r.toStoredObservationMigration.toValue := by
  obtain ⟨c, cs, ho, -⟩ := r.objectText.opens
  obtain ⟨ds, hc⟩ := r.objectText.closes
  have hlast : r.text.reverse.dropWhile isJsSpace = r.text.reverse := by
    rw [hc, List.reverse_append]
    exact List.dropWhile_cons_of_neg (by decide)
  have htrim : Mission.trimChars r.text = r.text := by
    have hfirst : r.text.dropWhile isJsSpace = r.text := by
      rw [ho]
      exact List.dropWhile_cons_of_neg (by decide)
    rw [Mission.trimChars, hfirst, hlast, List.reverse_reverse]
  have hne : r.text ≠ [] := by
    rw [ho]
    nofun
  rw [readLine, htrim, if_neg hne]
  exact parseJson_textOf r.printed_toValue

/-- A line of the file, or its last part. -/
inductive Piece where
  | whole (record : LedgerRecord)
  | torn (text : List Char) (h : Torn text)

namespace Piece

def text : Piece → List Char
  | whole record => record.text
  | torn text _ => text

def record? : Piece → Option LedgerRecord
  | whole record => some record
  | torn _ _ => none

theorem not_mem_text (p : Piece) : '\n' ∉ p.text := by
  cases p with
  | whole record => exact record.not_mem_text
  | torn text h => exact h.line

theorem text_ne_nil (p : Piece) : p.text ≠ [] := by
  cases p with
  | whole record =>
    obtain ⟨c, cs, ho, -⟩ := record.objectText.opens
    simp [text, ho]
  | torn text h =>
    obtain ⟨cs, rfl⟩ := h.opens
    nofun

theorem readLine_text (p : Piece) :
    readLine p.text = p.record?.map fun r => r.toStoredObservationMigration.toValue := by
  cases p with
  | whole record => exact Migration.readLine_text record
  | torn text h => exact readLine_torn h

/-- Behind a piece, a beginning of a record makes a torn text. -/
theorem torn_behind (p : Piece) (r : LedgerRecord) {used rest : List Char} (hu : used ≠ [])
    (he : r.text = used ++ rest) : Torn (p.text ++ used) := by
  have hused : '\n' ∉ used := fun hm => r.not_mem_text (he ▸ List.mem_append_left _ hm)
  have hopens : ∃ cs, p.text = '\x7b' :: cs := by
    cases p with
    | whole record =>
      obtain ⟨c, cs, ho, -⟩ := record.objectText.opens
      exact ⟨_, ho⟩
    | torn text h => exact h.opens
  obtain ⟨cs, hcs⟩ := hopens
  refine ⟨⟨cs ++ used, by rw [hcs, List.cons_append]⟩, ?_, ?_⟩
  · rw [List.mem_append]
    exact not_or.mpr ⟨p.not_mem_text, hused⟩
  rw [scan_append]
  cases p with
  | whole record =>
    -- a second object behind the first one is not read
    obtain ⟨c, ds, ho, -⟩ := r.objectText.opens
    cases used with
    | nil => exact absurd rfl hu
    | cons d used =>
      obtain rfl : d = '\x7b' := (List.cons.inj (he.symm.trans ho)).1
      have hdone : (normal 0).scan (whole record).text = done := record.objectText.scanned
      rw [hdone, scan_cons, show done.next '\x7b' = dead from rfl, scan_dead]
      trivial
  | torn text h => exact r.objectText.unfinished_behind h.unfinished he

end Piece

/-! ## Layouts -/

/-- The lines of a file and its last part. -/
structure Layout where
  lines : List Piece
  tail : Option Piece

namespace Layout

def tailText (L : Layout) : List Char := (L.tail.map Piece.text).getD []

def content (L : Layout) : List Char :=
  L.lines.flatMap (fun p => p.text ++ ['\n']) ++ L.tailText

def lineRecords (L : Layout) : List LedgerRecord := L.lines.filterMap Piece.record?

def records (L : Layout) : List LedgerRecord :=
  (L.lines ++ L.tail.toList).filterMap Piece.record?

theorem splitOn_content (L : Layout) :
    L.content.splitOn '\n' = L.lines.map Piece.text ++ [L.tailText] := by
  obtain ⟨lines, tail⟩ := L
  have htail : '\n' ∉ (Layout.mk lines tail).tailText := by
    cases tail with
    | none => nofun
    | some p => exact p.not_mem_text
  induction lines with
  | nil => exact List.splitOn_eq_singleton htail
  | cons p lines ih =>
    have he : (Layout.mk (p :: lines) tail).content =
        p.text ++ '\n' :: (Layout.mk lines tail).content := by
      simp [content, tailText]
    rw [he, List.splitOn_append_cons_self_of_not_mem p.not_mem_text, ih htail]
    rfl

theorem terminated_content (L : Layout) (h : Terminated (some L.content)) : L.tail = none := by
  cases ht : L.tail with
  | none => rfl
  | some p =>
    exfalso
    have hcontent : L.content = L.lines.flatMap (fun p => p.text ++ ['\n']) ++ p.text := by
      rw [content, tailText, ht]
      rfl
    rcases h L.content rfl with hnil | hlast
    · rw [hcontent] at hnil
      exact p.text_ne_nil (List.append_eq_nil_iff.mp hnil).2
    · rw [hcontent, List.getLast?_append_of_ne_nil _ p.text_ne_nil] at hlast
      exact p.not_mem_text (List.mem_of_getLast? hlast)

end Layout

/-! ## Reading a layout -/

theorem LedgerCache.set_of_not_mem {cache : LedgerCache} {key : String} (record : JsValue)
    (h : key ∉ cache.map Prod.fst) : cache.set key record = cache ++ [(key, record)] := by
  have hany : ¬ (cache.any fun e => e.1 = key) := by
    rw [List.any_eq_true]
    rintro ⟨e, he, hk⟩
    exact h (List.mem_map.mpr ⟨e, he, of_decide_eq_true hk⟩)
  rw [set, if_neg hany]

/-- An entry of the cache. -/
def LedgerRecord.entry (P : Platform) (r : LedgerRecord) : String × JsValue :=
  (r.toStoredObservationMigration.key P, r.toStoredObservationMigration.toValue)

/-- The keys of the records. -/
def recordKeys (P : Platform) (records : List LedgerRecord) : List String :=
  records.map fun r => r.toStoredObservationMigration.key P

theorem loadLines_pieces (P : Platform) (pieces : List Piece) (rest : List (List Char))
    (before : List LedgerRecord)
    (hn : (recordKeys P (before ++ pieces.filterMap Piece.record?)).Nodup) :
    loadLines P (before.map (LedgerRecord.entry P)) (pieces.map Piece.text ++ rest) =
      loadLines P ((before ++ pieces.filterMap Piece.record?).map (LedgerRecord.entry P)) rest := by
  induction pieces generalizing before with
  | nil => rw [List.filterMap_nil, List.append_nil]; rfl
  | cons p pieces ih =>
    cases p with
    | torn text h =>
      rw [List.map_cons, List.cons_append, loadLines, (Piece.torn text h).readLine_text]
      exact ih before hn
    | whole r =>
      have hsplit : before ++ (Piece.whole r :: pieces).filterMap Piece.record? =
          (before ++ [r]) ++ pieces.filterMap Piece.record? := by
        simp [Piece.record?]
      rw [hsplit] at hn ⊢
      have hfresh : r.toStoredObservationMigration.key P ∉
          (before.map (LedgerRecord.entry P)).map Prod.fst := by
        rw [List.map_map]
        have hd := hn
        rw [recordKeys, List.map_append, List.map_append, List.nodup_append] at hd
        exact fun hm => (List.nodup_append.mp hd.1).2.2 _ hm _ List.mem_cons_self rfl
      rw [List.map_cons, List.cons_append, loadLines, (Piece.whole r).readLine_text]
      simp only [Piece.record?, Option.map_some, recordKey_toValue, bind, Option.bind]
      rw [LedgerCache.set_of_not_mem _ hfresh, ← ih (before ++ [r]) hn, List.map_append]
      rfl

/-- With distinct keys, a lookup finds the record of its key. -/
theorem LedgerCache.get_eq_some {P : Platform} {records : List LedgerRecord} {key : String}
    {v : JsValue} (hn : (recordKeys P records).Nodup) :
    LedgerCache.get (records.map (LedgerRecord.entry P)) key = some v ↔
      ∃ r ∈ records, r.toStoredObservationMigration.key P = key ∧
        v = r.toStoredObservationMigration.toValue := by
  unfold LedgerCache.get
  induction records with
  | nil => simp
  | cons r records ih =>
    rw [recordKeys, List.map_cons, List.nodup_cons] at hn
    rw [List.map_cons, List.find?_cons]
    by_cases hk : r.toStoredObservationMigration.key P = key
    · have hd : decide ((r.entry P).1 = key) = true := decide_eq_true hk
      rw [hd]
      constructor
      · intro hv
        exact ⟨r, List.mem_cons_self, hk, (Option.some.inj hv).symm⟩
      · rintro ⟨r', hr, hk', rfl⟩
        rcases List.mem_cons.mp hr with rfl | hr
        · rfl
        · exact absurd (List.mem_map.mpr ⟨r', hr, hk'.trans hk.symm⟩) hn.1
    · have hd : decide ((r.entry P).1 = key) = false := decide_eq_false hk
      rw [hd]
      refine (ih hn.2).trans ⟨?_, ?_⟩
      · rintro ⟨r', hr, hrest⟩
        exact ⟨r', List.mem_cons_of_mem r hr, hrest⟩
      · rintro ⟨r', hr, hk', hv⟩
        rcases List.mem_cons.mp hr with rfl | hr
        · exact absurd hk' hk
        · exact ⟨r', hr, hk', hv⟩

/-- The file has a layout whose records have distinct keys. -/
structure Represents (P : Platform) (file : LedgerFile) (L : Layout) : Prop where
  content : file = some L.content ∨ file = none ∧ L = ⟨[], none⟩
  nodup : (recordKeys P L.records).Nodup

namespace Represents

variable {P : Platform} {file : LedgerFile} {L : Layout} (h : Represents P file L)
include h

theorem getD : file.getD [] = L.content := by
  rcases h.content with rfl | ⟨rfl, rfl⟩ <;> rfl

theorem reload : reload P file = some (L.records.map (LedgerRecord.entry P)) := by
  rcases h.content with rfl | ⟨rfl, rfl⟩
  · have hload := loadLines_pieces P (L.lines ++ L.tail.toList) [] [] h.nodup
    rw [Migration.reload, L.splitOn_content]
    cases ht : L.tail with
    | some p =>
      rw [ht] at hload
      simpa [Layout.tailText, Layout.records, ht, loadLines] using hload
    | none =>
      -- the last part is empty and skipped
      have hlines := loadLines_pieces P L.lines [[]] [] (by simpa [Layout.records, ht] using h.nodup)
      have hnil : readLine [] = none := rfl
      simpa [Layout.tailText, Layout.records, ht, loadLines, hnil] using hlines
  · rfl

theorem recorded_iff (key : String) :
    (LedgerCache.get (L.records.map (LedgerRecord.entry P)) key).isSome ↔
      key ∈ recordKeys P L.records := by
  rw [Option.isSome_iff_exists, recordKeys, List.mem_map]
  constructor
  · rintro ⟨v, hv⟩
    obtain ⟨r, hr, hk, -⟩ := (LedgerCache.get_eq_some h.nodup).mp hv
    exact ⟨r, hr, hk⟩
  · rintro ⟨r, hr, hk⟩
    exact ⟨_, (LedgerCache.get_eq_some h.nodup).mpr ⟨r, hr, hk, rfl⟩⟩

end Represents

/-! ## Writing -/

/-- What a crash of an append may leave of its line. -/
theorem cutText_cases (r : LedgerRecord) (cut : ℕ) (torn : Bool) :
    let written := cutText (r.text ++ ['\n']) cut torn
    written = [] ∨ written = r.text ++ ['\n'] ∨ written = r.text ∨
      ∃ used rest, used ≠ [] ∧ rest ≠ [] ∧ r.text = used ++ rest ∧
        (written = used ∨ written = used ++ [Char.ofNat 0xFFFD]) := by
  dsimp only
  obtain ⟨c, cs, ho, -⟩ := r.objectText.opens
  rcases Nat.eq_zero_or_pos cut with rfl | hpos
  · left
    rw [cutText, List.drop_zero, List.take_zero, ho]
    cases torn <;> rfl
  right
  rcases Nat.lt_trichotomy cut r.text.length with hlt | rfl | hgt
  · right
    right
    have htake : (r.text ++ ['\n']).take cut = r.text.take cut :=
      List.take_append_of_le_length (by omega)
    have hdrop : (r.text ++ ['\n']).drop cut = r.text.drop cut ++ ['\n'] :=
      List.drop_append_of_le_length (by omega)
    refine ⟨r.text.take cut, r.text.drop cut, ?_, ?_, (List.take_append_drop cut _).symm, ?_⟩
    · intro he
      have := List.take_eq_nil_iff.mp he
      rcases this with h | h
      · omega
      · rw [h] at hlt
        exact Nat.not_lt_zero _ hlt
    · intro he
      have := List.drop_eq_nil_iff.mp he
      omega
    · rw [cutText, htake, hdrop]
      split
      · split
        · exact Or.inr rfl
        · exact Or.inl (List.append_nil _)
      · exact Or.inl (List.append_nil _)
  · right
    left
    rw [cutText, List.take_left, List.drop_left]
    cases torn <;> exact List.append_nil _
  · left
    have hlen : (r.text ++ ['\n']).length ≤ cut := by
      rw [List.length_append]
      exact hgt
    rw [cutText, List.take_of_length_le hlen, List.drop_of_length_le hlen]
    exact List.append_nil _

theorem torn_of_cut (r : LedgerRecord) {used rest : List Char} (hu : used ≠ []) (hr : rest ≠ [])
    (he : r.text = used ++ rest) : Torn used := by
  refine ⟨?_, fun hm => r.not_mem_text (he ▸ List.mem_append_left _ hm),
    r.objectText.unfinished he hu hr⟩
  obtain ⟨c, cs, ho, -⟩ := r.objectText.opens
  cases used with
  | nil => exact absurd rfl hu
  | cons d used => exact ⟨used, by rw [(List.cons.inj (he.symm.trans ho)).1]⟩

theorem Torn.behind {text : List Char} (h : Torn text) : Torn (text ++ [Char.ofNat 0xFFFD]) := by
  obtain ⟨cs, rfl⟩ := h.opens
  refine ⟨⟨cs ++ [Char.ofNat 0xFFFD], rfl⟩, ?_, ?_⟩
  · rw [List.mem_append]
    exact not_or.mpr ⟨h.line, by decide⟩
  · rw [scan_append]
    exact h.unfinished.torn

/-- The layout after an append of a record that is complete or not. -/
structure Follows (L L' : Layout) (r : LedgerRecord) : Prop where
  lines : ∃ more, L'.lines = L.lines ++ more
  records : ∀ r' ∈ L'.records, r' ∈ L.records ∨ r' = r

theorem Layout.lineRecords_sublist (L : Layout) : L.lineRecords.Sublist L.records := by
  rw [records, List.filterMap_append]
  exact List.sublist_append_left _ _

theorem Layout.records_of_tail {L : Layout} (h : L.tail = none) : L.records = L.lineRecords := by
  rw [records, h, Option.toList_none, List.append_nil]
  rfl

theorem recordKeys_append (P : Platform) (xs ys : List LedgerRecord) :
    recordKeys P (xs ++ ys) = recordKeys P xs ++ recordKeys P ys := List.map_append

namespace Represents

variable {P : Platform} {file : LedgerFile} {L : Layout} (h : Represents P file L)
include h

theorem write {L' : Layout} {text : List Char} (hne : text ≠ [])
    (hc : L'.content = L.content ++ text) (hn : (recordKeys P L'.records).Nodup) :
    Represents P (file.write text) L' := by
  refine ⟨Or.inl ?_, hn⟩
  rw [LedgerFile.write, if_neg hne, h.getD, hc]

/-- A torn text becomes the last part, or the end of the last line. -/
theorem write_torn {r : LedgerRecord} {L' : Layout} {text : List Char} (hne : text ≠ [])
    (hc : L'.content = L.content ++ text) (hr : L'.records = L.lineRecords)
    (hl : ∃ more, L'.lines = L.lines ++ more) :
    Represents P (file.write text) L' ∧ Follows L L' r := by
  refine ⟨h.write hne hc ?_, hl, ?_⟩
  · rw [hr]
    exact h.nodup.sublist (L.lineRecords_sublist.map _)
  · intro r' hr'
    rw [hr] at hr'
    exact Or.inl (L.lineRecords_sublist.subset hr')

/-- A whole record is a record more. -/
theorem write_whole {r : LedgerRecord} {L' : Layout} {text : List Char} (hne : text ≠ [])
    (hfresh : r.toStoredObservationMigration.key P ∉ recordKeys P L.records)
    (hc : L'.content = L.content ++ text) (hr : L'.records = L.records ++ [r])
    (hl : ∃ more, L'.lines = L.lines ++ more) :
    Represents P (file.write text) L' ∧ Follows L L' r := by
  refine ⟨h.write hne hc ?_, hl, ?_⟩
  · rw [hr, recordKeys_append, List.nodup_append]
    refine ⟨h.nodup, List.nodup_singleton _, ?_⟩
    rintro k hk k' hk' rfl
    rw [List.mem_singleton.mp hk'] at hk
    exact hfresh hk
  · intro r' hr'
    rw [hr] at hr'
    rcases List.mem_append.mp hr' with hm | hm
    · exact Or.inl hm
    · exact Or.inr (List.mem_singleton.mp hm)

/-- A whole line behind the last line. -/
theorem write_line {r : LedgerRecord} (ht : L.tail = none)
    (hfresh : r.toStoredObservationMigration.key P ∉ recordKeys P L.records) :
    Represents P (file.write (r.text ++ ['\n'])) ⟨L.lines ++ [.whole r], none⟩ ∧
      Follows L ⟨L.lines ++ [.whole r], none⟩ r := by
  refine h.write_whole (by simp) hfresh ?_ ?_ ⟨_, rfl⟩
  · simp [Layout.content, Layout.tailText, ht, Piece.text]
  · simp [Layout.records, ht, Piece.record?]

/-- Whatever is written of a fresh record, the lines stay. -/
theorem write_cut (r : LedgerRecord) (cut : ℕ) (torn : Bool)
    (hfresh : r.toStoredObservationMigration.key P ∉ recordKeys P L.records) :
    ∃ L', Represents P (file.write (cutText (r.text ++ ['\n']) cut torn)) L' ∧
      Follows L L' r := by
  obtain ⟨c, cs, ho, -⟩ := r.objectText.opens
  have htext : r.text ≠ [] := by
    rw [ho]
    nofun
  -- what follows the last part when it is not empty is torn
  have hpart : ∀ p ∈ L.tail, ∀ text, text ≠ [] → ∀ ht : Torn (p.text ++ text),
      ∃ L', Represents P (file.write text) L' ∧ Follows L L' r := by
    intro p hp text hne ht
    refine ⟨⟨L.lines, some (.torn _ ht)⟩, h.write_torn hne ?_ ?_ ⟨[], (List.append_nil _).symm⟩⟩
    · simp [Layout.content, Layout.tailText, Option.mem_def.mp hp, Piece.text]
    · simp [Layout.records, Layout.lineRecords, Piece.record?]
  rcases cutText_cases r cut torn with hw | hw | hw | ⟨used, rest, hu, hr, he, hw⟩
  · rw [hw]
    exact ⟨L, h, ⟨[], (List.append_nil _).symm⟩, fun r' hr' => Or.inl hr'⟩
  · rw [hw]
    cases ht : L.tail with
    | none => exact ⟨_, h.write_line ht hfresh⟩
    | some p =>
      have htorn := p.torn_behind r htext (List.append_nil r.text).symm
      refine ⟨⟨L.lines ++ [.torn _ htorn], none⟩, h.write_torn (by simp) ?_ ?_ ⟨_, rfl⟩⟩
      · simp [Layout.content, Layout.tailText, ht, Piece.text]
      · simp [Layout.records, Layout.lineRecords, Piece.record?]
  · rw [hw]
    cases ht : L.tail with
    | none =>
      refine ⟨⟨L.lines, some (.whole r)⟩,
        h.write_whole htext hfresh ?_ ?_ ⟨[], (List.append_nil _).symm⟩⟩
      · simp [Layout.content, Layout.tailText, ht, Piece.text]
      · simp [Layout.records, ht, Piece.record?]
    | some p =>
      exact hpart p ht r.text htext (p.torn_behind r htext (List.append_nil r.text).symm)
  · have hcut : ∀ text, text ≠ [] → Torn text → (∀ p : Piece, Torn (p.text ++ text)) →
        ∃ L', Represents P (file.write text) L' ∧ Follows L L' r := by
      intro text hne htorn hbehind
      cases ht : L.tail with
      | none =>
        refine ⟨⟨L.lines, some (.torn _ htorn)⟩,
          h.write_torn hne ?_ ?_ ⟨[], (List.append_nil _).symm⟩⟩
        · simp [Layout.content, Layout.tailText, ht, Piece.text]
        · simp [Layout.records, Layout.lineRecords, Piece.record?]
      | some p => exact hpart p ht text hne (hbehind p)
    have htorn := torn_of_cut r hu hr he
    have hbehind := fun p : Piece => p.torn_behind r hu he
    rcases hw with hw | hw
    · rw [hw]
      exact hcut used hu htorn hbehind
    · rw [hw]
      refine hcut _ (by simp) htorn.behind ?_
      intro p
      rw [← List.append_assoc]
      exact (hbehind p).behind

end Represents

/-! ## Histories -/

section Histories

variable {P : Platform} {file : LedgerFile} {L : Layout}

theorem Represents.lineFor (h : Represents P file L) (r : LedgerRecord) :
    lineFor P file r.toStoredObservationMigration =
      some (if r.toStoredObservationMigration.key P ∈ recordKeys P L.records then []
        else r.text ++ ['\n']) := by
  rw [Migration.lineFor, h.reload, Option.map_some]
  congr 1
  by_cases hk : r.toStoredObservationMigration.key P ∈ recordKeys P L.records
  · rw [if_pos ((h.recorded_iff _).mpr hk), if_pos hk]
  · rw [if_neg (fun hs => hk ((h.recorded_iff _).mp hs)), if_neg hk]
    rfl

/-- An append returns. -/
theorem Represents.append (h : Represents P file L) (r : LedgerRecord) :
    append P file r.toStoredObservationMigration =
      some (ledgerStep P file (.append r)) := by
  rw [ledgerStep, Migration.append, h.lineFor]
  rfl

theorem cutText_nil (cut : ℕ) (torn : Bool) : cutText [] cut torn = [] := by
  simp [cutText]

theorem cutText_all (text : List Char) : cutText text text.length false = text := by
  rw [cutText, List.take_length, List.drop_length, List.append_nil]

theorem Represents.step (h : Represents P file L) (e : LedgerEvent) :
    ∃ L', Represents P (ledgerStep P file e) L' ∧ Follows L L' e.record := by
  have hstay : ∃ L', Represents P (file.write []) L' ∧ Follows L L' e.record :=
    ⟨L, h, ⟨[], (List.append_nil _).symm⟩, fun r' hr' => Or.inl hr'⟩
  cases e with
  | append r =>
    rw [ledgerStep, Migration.append, h.lineFor]
    by_cases hk : r.toStoredObservationMigration.key P ∈ recordKeys P L.records
    · rw [if_pos hk]
      exact hstay
    · rw [if_neg hk, ← cutText_all (r.text ++ ['\n'])]
      exact h.write_cut r _ false hk
  | crash r cut torn =>
    rw [ledgerStep, h.lineFor]
    by_cases hk : r.toStoredObservationMigration.key P ∈ recordKeys P L.records
    · rw [if_pos hk]
      dsimp only
      rw [cutText_nil]
      exact hstay
    · rw [if_neg hk]
      exact h.write_cut r cut torn hk

theorem Represents.run (h : Represents P file L) (events : List LedgerEvent) :
    ∃ L', Represents P (events.foldl (ledgerStep P) file) L' ∧
      (∃ more, L'.lines = L.lines ++ more) ∧
        ∀ r ∈ L'.records, r ∈ L.records ∨ ∃ e ∈ events, r = e.record := by
  induction events generalizing file L with
  | nil => exact ⟨L, h, ⟨[], (List.append_nil _).symm⟩, fun r hr => Or.inl hr⟩
  | cons e events ih =>
    obtain ⟨M, hM, ⟨more, hlines⟩, hrecords⟩ := h.step e
    obtain ⟨L', hL', ⟨more', hlines'⟩, hrecords'⟩ := ih hM
    refine ⟨L', hL', ⟨more ++ more', by rw [hlines', hlines, List.append_assoc]⟩, ?_⟩
    intro r hr
    rcases hrecords' r hr with hm | ⟨e', he', rfl⟩
    · rcases hrecords r hm with hl | rfl
      · exact Or.inl hl
      · exact Or.inr ⟨e, List.mem_cons_self, rfl⟩
    · exact Or.inr ⟨e', List.mem_cons_of_mem e he', rfl⟩

theorem represents_none (P : Platform) : Represents P none ⟨[], none⟩ :=
  ⟨Or.inr ⟨rfl, rfl⟩, List.nodup_nil⟩

theorem Represents.tail_of_terminated (h : Represents P file L) (ht : Terminated file) :
    L.tail = none := by
  rcases h.content with rfl | ⟨rfl, rfl⟩
  · exact L.terminated_content ht
  · rfl

theorem Represents.list (h : Represents P file L) :
    list P file = some (L.records.map fun r => r.toStoredObservationMigration.toValue) := by
  rw [Migration.list, h.reload, Option.map_some, List.map_map]
  rfl

/-- The result of a lookup with the key of a record. -/
def findRecord (P : Platform) (file : LedgerFile) (r : LedgerRecord) : Option (Option JsValue) :=
  find P file r.result.assetId r.result.sourceHash (some r.result.migratorVersion)
    r.result.toObservationMigrationLookupIdentity

theorem Represents.findRecord (h : Represents P file L) (r : LedgerRecord) :
    findRecord P file r = some (LedgerCache.get (L.records.map (LedgerRecord.entry P))
      (r.toStoredObservationMigration.key P)) := by
  rw [Migration.findRecord, find, h.reload]
  rfl

/-- An append to a ledger without a last part leaves a line with its key, which is the one that was
there before if there was one. -/
theorem Represents.append_recorded (h : Represents P file L) (ht : L.tail = none)
    (r : LedgerRecord) :
    ∃ L' first, Represents P (ledgerStep P file (.append r)) L' ∧ first ∈ L'.lineRecords ∧
      first.toStoredObservationMigration.key P = r.toStoredObservationMigration.key P ∧
      (Migration.findRecord P file r = some (some first.toStoredObservationMigration.toValue) ∨
        Migration.findRecord P file r = some none ∧ first = r) := by
  rw [ledgerStep, Migration.append, h.lineFor, h.findRecord]
  by_cases hk : r.toStoredObservationMigration.key P ∈ recordKeys P L.records
  · obtain ⟨first, hfirst, hkey⟩ := List.mem_map.mp hk
    have hget := (LedgerCache.get_eq_some h.nodup).mpr ⟨first, hfirst, hkey, rfl⟩
    rw [if_pos hk]
    rw [L.records_of_tail ht] at hfirst
    exact ⟨L, first, h, hfirst, hkey, Or.inl (congrArg some hget)⟩
  · have hget : LedgerCache.get (L.records.map (LedgerRecord.entry P))
        (r.toStoredObservationMigration.key P) = none := by
      rw [← Option.not_isSome_iff_eq_none, h.recorded_iff]
      exact hk
    rw [if_neg hk]
    refine ⟨_, r, (h.write_line ht hk).1, ?_, rfl, Or.inr ⟨congrArg some hget, rfl⟩⟩
    simp [Layout.lineRecords, Piece.record?]

/-- A record in a line is found and listed in every later state. -/
theorem Represents.kept (h : Represents P file L) {first r : LedgerRecord}
    (hfirst : first ∈ L.lineRecords)
    (hkey : first.toStoredObservationMigration.key P = r.toStoredObservationMigration.key P)
    (later : List LedgerEvent) :
    Migration.findRecord P (later.foldl (ledgerStep P) file) r =
        some (some first.toStoredObservationMigration.toValue) ∧
      ∃ listed, Migration.list P (later.foldl (ledgerStep P) file) = some listed ∧
        first.toStoredObservationMigration.toValue ∈ listed := by
  obtain ⟨L', hL', ⟨more, hmore⟩, -⟩ := h.run later
  have hmem : first ∈ L'.records := by
    refine L'.lineRecords_sublist.subset ?_
    rw [Layout.lineRecords, hmore, List.filterMap_append]
    exact List.mem_append_left _ hfirst
  refine ⟨?_, _, hL'.list, List.mem_map.mpr ⟨first, hmem, rfl⟩⟩
  rw [hL'.findRecord]
  exact congrArg some ((LedgerCache.get_eq_some hL'.nodup).mpr ⟨first, hmem, hkey, rfl⟩)

end Histories

/-- In every history of appends, of which some crash, the ledger can be read and lists nothing but
records that were appended. An append to a ledger that ends with a whole line returns, and from
then on the ledger has under its key the record that was first recorded under it. -/
theorem ledger_durable (P : Platform) (past : List LedgerEvent) :
    (∃ listed, list P (ledgerAfter P past) = some listed ∧
      ∀ v ∈ listed, ∃ e ∈ past, v = e.record.toStoredObservationMigration.toValue) ∧
    ∀ (r : LedgerRecord) (later : List LedgerEvent), Terminated (ledgerAfter P past) →
      append P (ledgerAfter P past) r.toStoredObservationMigration =
          some (ledgerAfter P (past ++ [.append r])) ∧
        ∃ first : LedgerRecord,
          (findRecord P (ledgerAfter P past) r =
              some (some first.toStoredObservationMigration.toValue) ∨
            findRecord P (ledgerAfter P past) r = some none ∧ first = r) ∧
          findRecord P (ledgerAfter P (past ++ .append r :: later)) r =
            some (some first.toStoredObservationMigration.toValue) ∧
          ∃ listed, list P (ledgerAfter P (past ++ .append r :: later)) = some listed ∧
            first.toStoredObservationMigration.toValue ∈ listed := by
  obtain ⟨L, hL, -, hrecords⟩ := (represents_none P).run past
  replace hL : Represents P (ledgerAfter P past) L := hL
  constructor
  · refine ⟨_, hL.list, ?_⟩
    intro v hv
    obtain ⟨r, hr, rfl⟩ := List.mem_map.mp hv
    obtain ⟨e, he, rfl⟩ := (hrecords r hr).resolve_left (by nofun)
    exact ⟨e, he, rfl⟩
  intro r later hterminated
  have hafter (later : List LedgerEvent) : ledgerAfter P (past ++ .append r :: later) =
      later.foldl (ledgerStep P) (ledgerStep P (ledgerAfter P past) (.append r)) := by
    rw [ledgerAfter, List.foldl_append]
    rfl
  obtain ⟨M, first, hM, hfirst, hkey, hfound⟩ :=
    hL.append_recorded (hL.tail_of_terminated hterminated) r
  refine ⟨?_, first, hfound, ?_⟩
  · rw [hafter]
    exact hL.append r
  · rw [hafter]
    exact hM.kept hfirst hkey later

/-! ### Runs -/

/-- A platform whose digests are the texts themselves. -/
def ledgerPlatform : Platform where
  sha256Hex := plainText
  sha256Base64url := plainText
  newUrl _ := none
  bindText _ := none

/-- The record of an asset that failed for a reason. -/
def failedRecord (assetId reasonCode : String) : LedgerRecord where
  result := {
    skillSourceHash := none
    skillVersion := none
    skillAssetHash := none
    assetId := assetId
    assetKind := some .observation
    sourceHash := "9f86d081"
    status := .failed
    outputRef := none
    reasonCode := some reasonCode
    migratorVersion := "observation-migrator/1"
    sourceTraceRefs := none
    expectedSourceHash := none
    computedSkillSourceHash := none
    locatorSchemaVersion := none
    skillCompilerVersion := none }
  projection := none
  metadata := none
  printed := nofun

/-- After a crash that left half of a line and its restart, and after a first append that ended the
line, a record is kept while a later append crashes. -/
theorem recovered_durable :
    findRecord ledgerPlatform (ledgerAfter ledgerPlatform
      ([.crash (failedRecord "a" "x") 9 false, .append (failedRecord "b" "x")] ++
        .append (failedRecord "a" "x") :: [.crash (failedRecord "b" "x") 30 false]))
          (failedRecord "a" "x") =
      some (some (failedRecord "a" "x").toStoredObservationMigration.toValue) := by
  have h := (ledger_durable ledgerPlatform
    [.crash (failedRecord "a" "x") 9 false, .append (failedRecord "b" "x")]).2
      (failedRecord "a" "x") [.crash (failedRecord "b" "x") 30 false]
      (by unfold Terminated; decide)
  obtain ⟨-, first, hfirst, hfound, -⟩ := h
  have hnew : findRecord ledgerPlatform (ledgerAfter ledgerPlatform
      [.crash (failedRecord "a" "x") 9 false, .append (failedRecord "b" "x")])
        (failedRecord "a" "x") = some none := by
    decide +kernel
  rcases hfirst with he | ⟨-, rfl⟩
  · rw [hnew] at he
    cases he
  · exact hfound

/-- An append that returns may write nothing, when its key is recorded with another content; and
what it writes behind half of a line is not read. -/
theorem append_not_durable :
    (∃ file, append ledgerPlatform (ledgerAfter ledgerPlatform [.append (failedRecord "a" "x")])
        (failedRecord "a" "y").toStoredObservationMigration = some file ∧
      findRecord ledgerPlatform file (failedRecord "a" "y") ≠
        some (some (failedRecord "a" "y").toStoredObservationMigration.toValue)) ∧
    ∃ file, append ledgerPlatform (ledgerAfter ledgerPlatform [.crash (failedRecord "a" "x") 9 false])
        (failedRecord "b" "x").toStoredObservationMigration = some file ∧
      findRecord ledgerPlatform file (failedRecord "b" "x") = some none := by
  refine ⟨⟨_, ((represents_none ledgerPlatform).step
    (.append (failedRecord "a" "x"))).choose_spec.1.append (failedRecord "a" "y"), ?_⟩, ?_⟩
  · decide +kernel
  · refine ⟨_, ((represents_none ledgerPlatform).step
      (.crash (failedRecord "a" "x") 9 false)).choose_spec.1.append (failedRecord "b" "x"), ?_⟩
    decide +kernel

end Qualigence.Migration
