import Mathlib.Data.List.Forall2
import Qualigence.Exploration.Fingerprint
import Qualigence.Protocol.PayloadHash

/-! # What fingerprints and prompt views do not depend on

A fingerprint is the same for two graphs that differ by a renaming of the nodes, by the order of
nodes, relations and roots, by what secret nodes show, and by what is not part of the state of the
target. Round by round, nodes that correspond to each other have one identity. A prompt view is the
same for two graphs that differ by the values and the texts of secret nodes.
-/

namespace Qualigence.Exploration

open Protocol Observation

/-! ## Variants of a graph -/

def renameRelation (rename : String → String) (relation : ObservationRelationV1) :
    ObservationRelationV1 where
  type := relation.type
  targetNodeId := rename relation.targetNodeId

/-- A node that shows what another one shows. Only what is not secret has to be shown again. -/
structure NodeVariant (rename : String → String) (node node' : ObservationNodeV1) : Prop where
  id : node'.id = rename node.id
  role : node'.role = node.role
  name : node'.name = node.name
  source : node'.source = node.source
  sensitivity : node'.sensitivity = node.sensitivity
  relations : node'.relations.Perm (node.relations.map (renameRelation rename))
  shown : node.sensitivity ≠ .secret → node'.value = node.value ∧ node'.state = node.state

/-- A graph of the same state of the target, its nodes renamed. The renaming is one to one on the
nodes as soon as the identifiers of both graphs are unique. -/
structure Variant (rename : String → String) (graph graph' : ObservationGraphV1) : Prop where
  target : graph'.target = graph.target
  extensions : graph'.extensions = graph.extensions
  roots : graph'.rootNodeIds.Perm (graph.rootNodeIds.map rename)
  nodes : ∃ nodes, graph'.nodes.Perm nodes ∧ List.Forall₂ (NodeVariant rename) graph.nodes nodes

/-- Values of one property of a secret node: two texts, or the same value. -/
def SecretValue : StateValue → StateValue → Prop
  | .str _, .str _ => True
  | value, value' => value = value'

/-- The values and the texts of a secret node are free, everything else is not. -/
def SecretNode (node node' : ObservationNodeV1) : Prop :=
  if node.sensitivity = .secret then
    List.Forall₂ (fun entry entry' => entry'.1 = entry.1 ∧ SecretValue entry.2 entry'.2)
      node.state node'.state ∧
    node' = { node with value := node'.value, state := node'.state }
  else node' = node

structure SecretVariant (graph graph' : ObservationGraphV1) : Prop where
  rest : graph' = { graph with nodes := graph'.nodes }
  nodes : List.Forall₂ SecretNode graph.nodes graph'.nodes

def Valid (L : ObservationLibrary) (graph : ObservationGraphV1) : Prop :=
  validateConsumerObservationGraph L graph = .ok graph

def Ascii (text : String) : Prop := ∀ c ∈ text.toList, c.toNat < 128

/-- Digests are texts of hexadecimal digits and tell texts apart, and normalization leaves the texts
of such characters as they are. -/
structure Digests (P : Platform) (L : ObservationLibrary) : Prop where
  injective : Function.Injective P.sha256Hex
  ascii : ∀ bytes, Ascii (P.sha256Hex bytes)
  normalized : ∀ text, Ascii text → L.normalizeNFC text = text

/-! ## Sorting -/

section Sorting

variable {α β : Type} {L : ObservationLibrary} {key : α → String}

/-- Sorting forgets the order of the items as far as their keys tell them apart. -/
theorem map_sortBy_eq_of_perm {items items' : List α} {value : α → β} (h : items.Perm items')
    (hkey : ∀ a ∈ items, ∀ b ∈ items,
      L.normalizeNFC (key a) = L.normalizeNFC (key b) → value a = value b) :
    (sortBy L key items).map value = (sortBy L key items').map value := by
  let entry (a : α) : String × β := (L.normalizeNFC (key a), value a)
  have hentry (xs : List α) : (sortBy L key xs).map entry =
      (xs.map entry).insertionSort fun x y => utf16Le x.1 y.1 :=
    List.map_insertionSort _ _ entry xs fun _ _ _ _ => Iff.rfl
  have hvalue (xs : List α) :
      (sortBy L key xs).map value = ((sortBy L key xs).map entry).map Prod.snd := by
    rw [List.map_map]
    rfl
  rw [hvalue, hvalue, hentry, hentry]
  refine congrArg (List.map Prod.snd) (insertionSort_eq_of_perm_of_key Prod.fst (h.map entry) ?_)
  rintro x hx y hy hk
  obtain ⟨a, ha, rfl⟩ := List.mem_map.mp hx
  obtain ⟨b, hb, rfl⟩ := List.mem_map.mp hy
  exact Prod.ext hk (hkey a ha b hb hk)

theorem sortBy_eq_of_perm {items items' : List α} (h : items.Perm items')
    (hkey : ∀ a ∈ items, ∀ b ∈ items, L.normalizeNFC (key a) = L.normalizeNFC (key b) → a = b) :
    sortBy L key items = sortBy L key items' := by
  have hid : (sortBy L key items).map id = (sortBy L key items').map id :=
    map_sortBy_eq_of_perm h hkey
  rwa [List.map_id, List.map_id] at hid

theorem perm_sortBy (items : List α) : (sortBy L key items).Perm items :=
  List.perm_insertionSort _ _

end Sorting

/-! ## Identities -/

section Identities

variable {P : Platform} {L : ObservationLibrary}

/-- A node finds its own entry. -/
theorem mapOf_nodes {nodes : List ObservationNodeV1} (value : ObservationNodeV1 → String)
    (hnodup : (nodes.map (·.id)).Nodup) {node : ObservationNodeV1} (hnode : node ∈ nodes) :
    mapOf (nodes.map fun node => (node.id, value node)) node.id = some (value node) := by
  unfold mapOf
  cases hfind : ((nodes.map fun node => (node.id, value node)).reverse.find?
      fun entry => entry.1 = node.id) with
  | none =>
    have hmem : (node.id, value node) ∈
        (nodes.map fun node => (node.id, value node)).reverse :=
      List.mem_reverse.mpr (List.mem_map_of_mem hnode)
    exact absurd (decide_eq_true rfl) (List.find?_eq_none.mp hfind _ hmem)
  | some entry =>
    obtain ⟨node', hnode', rfl⟩ :=
      List.mem_map.mp (List.mem_reverse.mp (List.mem_of_find?_eq_some hfind))
    have hid : node'.id = node.id := by simpa using List.find?_some hfind
    obtain rfl := List.inj_on_of_nodup_map hnodup hnode' hnode hid
    rfl

theorem ascii_payloadHash (h : Digests P L) {v : JsValue} (hv : v ≠ .undefined) :
    Ascii (payloadHash P v) := by
  rw [payloadHash, canonicalPayloadHash_eq P hv, Option.getD_some]
  exact h.ascii _

/-- The digest of a node that its identity is after a number of rounds. -/
def label (P : Platform) (L : ObservationLibrary) (nodes : List ObservationNodeV1) :
    ℕ → ObservationNodeV1 → String
  | 0, node => payloadHash P (nodeBaseFingerprintView L node)
  | depth + 1, node => payloadHash P (nodeFingerprintView L (identitiesAfter P L nodes depth) node)

theorem identitiesAfter_id {nodes : List ObservationNodeV1} (hnodup : (nodes.map (·.id)).Nodup)
    (depth : ℕ) {node : ObservationNodeV1} (hnode : node ∈ nodes) :
    identitiesAfter P L nodes depth node.id = some (label P L nodes depth node) := by
  cases depth with
  | zero => exact mapOf_nodes _ hnodup hnode
  | succ depth =>
    have hp : (sortBy L (·.id) nodes).Perm nodes := perm_sortBy nodes
    exact mapOf_nodes _ ((hp.map _).nodup_iff.mpr hnodup) (hp.mem_iff.mpr hnode)

theorem ascii_label (h : Digests P L) (nodes : List ObservationNodeV1) (depth : ℕ)
    (node : ObservationNodeV1) : Ascii (label P L nodes depth node) := by
  cases depth <;> exact ascii_payloadHash h nofun

/-! ## Relations -/

theorem text_nul_free (type : ObservationRelationType) : ∀ c ∈ type.text.toList, c ≠ '\x00' := by
  have h : type.text.toList.all (· != '\x00') = true := by cases type <;> rfl
  intro c hc
  exact bne_iff_ne.mp (List.all_eq_true.mp h c hc)

theorem ascii_text (type : ObservationRelationType) : Ascii type.text := by
  have h : type.text.toList.all (·.toNat < 128) = true := by cases type <;> rfl
  intro c hc
  exact of_decide_eq_true (List.all_eq_true.mp h c hc)

theorem text_injective : Function.Injective ObservationRelationType.text := by
  intro type type' h
  cases type <;> cases type' <;> first | rfl | exact absurd h (by decide)

theorem key_toList (view : ObservationRelationFingerprintView) :
    view.key.toList = view.type.text.toList ++ '\x00' :: view.target.toList := by
  simp [ObservationRelationFingerprintView.key]

/-- A key tells the type from the target, since a type has no NUL. -/
theorem key_injective : Function.Injective ObservationRelationFingerprintView.key := by
  intro view view' h
  have hl := congrArg String.toList h
  rw [key_toList, key_toList] at hl
  have htake (view : ObservationRelationFingerprintView) :
      (view.type.text.toList ++ '\x00' :: view.target.toList).takeWhile (· ≠ '\x00') =
        view.type.text.toList := by
    rw [List.takeWhile_append_of_pos (by simpa using text_nul_free view.type)]
    simp
  have htext := congrArg (List.takeWhile (· ≠ '\x00')) hl
  rw [htake, htake] at htext
  rw [htext] at hl
  have htarget := (List.cons.inj (List.append_cancel_left hl)).2
  obtain ⟨type, target⟩ := view
  obtain ⟨type', target'⟩ := view'
  obtain rfl : type = type' := text_injective (String.toList_injective htext)
  obtain rfl : target = target' := String.toList_injective htarget
  rfl

theorem ascii_key {view : ObservationRelationFingerprintView} (h : Ascii view.target) :
    Ascii view.key := by
  intro c hc
  rw [key_toList, List.mem_append, List.mem_cons] at hc
  rcases hc with hc | rfl | hc
  · exact ascii_text view.type c hc
  · decide
  · exact h c hc

end Identities

/-! ## Corresponding nodes -/

section Correspondence

variable {P : Platform} {L : ObservationLibrary} {rename : String → String}

/-- Identities that are carried along by a renaming of the known nodes. -/
structure Carried (rename : String → String) (known : List String)
    (identities identities' : String → Option String) : Prop where
  same : ∀ id ∈ known, identities' (rename id) = identities id
  digest : ∀ id ∈ known, ∃ digest, identities id = some digest ∧ Ascii digest

theorem NodeVariant.baseFields {node node' : ObservationNodeV1} (h : NodeVariant rename node node') :
    nodeBaseFields L node' = nodeBaseFields L node := by
  unfold nodeBaseFields
  rw [h.role, h.name, h.source, h.sensitivity]
  by_cases hs : node.sensitivity = .secret
  · simp only [if_pos hs]
  · rw [(h.shown hs).1, (h.shown hs).2]

/-- The relations of corresponding nodes, in their order, lead to the same identities. -/
theorem NodeVariant.relationViews (hd : Digests P L) {known : List String}
    {identities identities' : String → Option String}
    (hc : Carried rename known identities identities') {node node' : ObservationNodeV1}
    (h : NodeVariant rename node node')
    (hknown : ∀ relation ∈ node.relations, relation.targetNodeId ∈ known) :
    sortBy L ObservationRelationFingerprintView.key
        (node'.relations.map (relationFingerprintView identities')) =
      sortBy L ObservationRelationFingerprintView.key
        (node.relations.map (relationFingerprintView identities)) := by
  have hviews : (node.relations.map (renameRelation rename)).map
      (relationFingerprintView identities') =
        node.relations.map (relationFingerprintView identities) := by
    rw [List.map_map]
    refine List.map_congr_left fun relation hr => ?_
    obtain ⟨digest, hdigest, -⟩ := hc.digest _ (hknown relation hr)
    simp [relationFingerprintView, renameRelation, hc.same _ (hknown relation hr), hdigest]
  have hascii : ∀ view ∈ node.relations.map (relationFingerprintView identities),
      Ascii view.key := by
    intro view hview
    obtain ⟨relation, hr, rfl⟩ := List.mem_map.mp hview
    obtain ⟨digest, hdigest, ha⟩ := hc.digest _ (hknown relation hr)
    refine ascii_key ?_
    simpa only [relationFingerprintView, hdigest, Option.getD_some] using ha
  symm
  refine sortBy_eq_of_perm (hviews ▸ (h.relations.map _).symm) ?_
  intro view hview view' hview' hkey
  rw [hd.normalized _ (hascii view hview), hd.normalized _ (hascii view' hview')] at hkey
  exact key_injective hkey

theorem NodeVariant.view (hd : Digests P L) {known : List String}
    {identities identities' : String → Option String}
    (hc : Carried rename known identities identities') {node node' : ObservationNodeV1}
    (h : NodeVariant rename node node')
    (hknown : ∀ relation ∈ node.relations, relation.targetNodeId ∈ known) :
    nodeFingerprintView L identities' node' = nodeFingerprintView L identities node := by
  rw [nodeFingerprintView, nodeFingerprintView, h.baseFields, h.relationViews hd hc hknown]

theorem exists_of_forall₂ {α β : Type} {r : α → β → Prop} {xs : List α} {ys : List β}
    (h : List.Forall₂ r xs ys) {x : α} (hx : x ∈ xs) : ∃ y ∈ ys, r x y := by
  induction h with
  | nil => exact absurd hx List.not_mem_nil
  | @cons a b as bs hab _ ih =>
    rcases List.mem_cons.mp hx with rfl | hx
    · exact ⟨b, List.mem_cons_self, hab⟩
    · obtain ⟨y, hy, hr⟩ := ih hx
      exact ⟨y, List.mem_cons_of_mem b hy, hr⟩

theorem map_eq_of_forall₂ {α β γ : Type} {r : α → β → Prop} {f : β → γ} {g : α → γ} {xs : List α}
    {ys : List β} (h : List.Forall₂ r xs ys) (hr : ∀ x ∈ xs, ∀ y, r x y → f y = g x) :
    ys.map f = xs.map g := by
  induction h with
  | nil => rfl
  | @cons x y xs ys hxy _ ih =>
    rw [List.map_cons, List.map_cons, hr x List.mem_cons_self y hxy,
      ih fun x hx => hr x (List.mem_cons_of_mem _ hx)]

variable {graph graph' : ObservationGraphV1}

theorem Variant.partner (h : Variant rename graph graph') {node : ObservationNodeV1}
    (hnode : node ∈ graph.nodes) : ∃ node' ∈ graph'.nodes, NodeVariant rename node node' := by
  obtain ⟨nodes, hperm, hnodes⟩ := h.nodes
  obtain ⟨node', hnode', hv⟩ := exists_of_forall₂ hnodes hnode
  exact ⟨node', hperm.mem_iff.mpr hnode', hv⟩

theorem Variant.carried_of_labels (hd : Digests P L) (h : Variant rename graph graph')
    (hw : graph.WellFormed) (hw' : graph'.WellFormed) {depth : ℕ}
    (hlabel : ∀ node ∈ graph.nodes, ∀ node', NodeVariant rename node node' →
      label P L graph'.nodes depth node' = label P L graph.nodes depth node) :
    Carried rename graph.nodeIds (identitiesAfter P L graph.nodes depth)
      (identitiesAfter P L graph'.nodes depth) := by
  constructor
  · intro id hid
    obtain ⟨node, hnode, rfl⟩ := List.mem_map.mp hid
    obtain ⟨node', hnode', hv⟩ := h.partner hnode
    rw [← hv.id, identitiesAfter_id hw.nodup depth hnode, identitiesAfter_id hw'.nodup depth hnode',
      hlabel node hnode node' hv]
  · intro id hid
    obtain ⟨node, hnode, rfl⟩ := List.mem_map.mp hid
    exact ⟨_, identitiesAfter_id hw.nodup depth hnode, ascii_label hd graph.nodes depth node⟩

/-- Corresponding nodes have one identity after any number of rounds. -/
theorem Variant.carried (hd : Digests P L) (h : Variant rename graph graph')
    (hw : graph.WellFormed) (hw' : graph'.WellFormed) (depth : ℕ) :
    Carried rename graph.nodeIds (identitiesAfter P L graph.nodes depth)
      (identitiesAfter P L graph'.nodes depth) := by
  induction depth with
  | zero =>
    refine h.carried_of_labels hd hw hw' fun node _ node' hv => ?_
    rw [label, label, nodeBaseFingerprintView, nodeBaseFingerprintView, hv.baseFields]
  | succ depth ih =>
    refine h.carried_of_labels hd hw hw' fun node hnode node' hv => ?_
    rw [label, label, hv.view hd ih (hw.relations node hnode)]

theorem Variant.length_nodes (h : Variant rename graph graph') :
    graph'.nodes.length = graph.nodes.length := by
  obtain ⟨nodes, hperm, hnodes⟩ := h.nodes
  rw [hperm.length_eq, hnodes.length_eq]

theorem Variant.stable (hd : Digests P L) (h : Variant rename graph graph')
    (hw : graph.WellFormed) (hw' : graph'.WellFormed) :
    Carried rename graph.nodeIds (stableNodeIdentityById P L graph.nodes)
      (stableNodeIdentityById P L graph'.nodes) := by
  unfold stableNodeIdentityById
  rw [h.length_nodes]
  exact h.carried hd hw hw' _

/-! ## Fingerprints -/

theorem Variant.nodeViews (hd : Digests P L) (h : Variant rename graph graph')
    {identities identities' : String → Option String}
    (hc : Carried rename graph.nodeIds identities identities') (hw : graph.WellFormed) :
    (graph'.nodes.map (nodeFingerprintView L identities')).Perm
      (graph.nodes.map (nodeFingerprintView L identities)) := by
  obtain ⟨nodes, hperm, hnodes⟩ := h.nodes
  have hviews : nodes.map (nodeFingerprintView L identities') =
      graph.nodes.map (nodeFingerprintView L identities) := by
    refine map_eq_of_forall₂ hnodes fun node hnode node' hv => ?_
    exact hv.view hd hc (hw.relations node hnode)
  exact hviews ▸ hperm.map _

/-- The digests of the roots, in their order. -/
theorem Variant.rootNodes (hd : Digests P L) (h : Variant rename graph graph')
    {identities identities' : String → Option String}
    (hc : Carried rename graph.nodeIds identities identities') (hw : graph.WellFormed) :
    sortStrings L (graph'.rootNodeIds.map fun id => (identities' id).getD id) =
      sortStrings L (graph.rootNodeIds.map fun id => (identities id).getD id) := by
  have hroots : (graph.rootNodeIds.map rename).map (fun id => (identities' id).getD id) =
      graph.rootNodeIds.map fun id => (identities id).getD id := by
    rw [List.map_map]
    refine List.map_congr_left fun id hid => ?_
    obtain ⟨digest, hdigest, -⟩ := hc.digest id (hw.roots id hid)
    simp [hc.same id (hw.roots id hid), hdigest]
  have hascii : ∀ root ∈ graph.rootNodeIds.map (fun id => (identities id).getD id), Ascii root := by
    intro root hroot
    obtain ⟨id, hid, rfl⟩ := List.mem_map.mp hroot
    obtain ⟨digest, hdigest, ha⟩ := hc.digest id (hw.roots id hid)
    simpa only [hdigest, Option.getD_some] using ha
  symm
  refine sortBy_eq_of_perm (hroots ▸ (h.roots.map _).symm) ?_
  intro root hroot root' hroot' hkey
  rwa [id, id, hd.normalized _ (hascii root hroot), hd.normalized _ (hascii root' hroot')] at hkey

end Correspondence

/-- Views that are hashed alike are written alike. -/
theorem canonicalText_of_payloadHash {P : Platform} {L : ObservationLibrary} (hd : Digests P L)
    {v w : JsValue} (hv : v ≠ .undefined) (hw : w ≠ .undefined)
    (h : payloadHash P v = payloadHash P w) : canonicalText v = canonicalText w := by
  refine (canonicalPayloadHash_eq_iff hd.injective hv hw).mp ?_
  rw [payloadHash, payloadHash, canonicalPayloadHash_eq P hv, canonicalPayloadHash_eq P hw] at h
  rw [canonicalPayloadHash_eq P hv, canonicalPayloadHash_eq P hw]
  exact congrArg some h

section Views

variable {P : Platform} {L : ObservationLibrary} {rename : String → String}
  {graph graph' : ObservationGraphV1}

theorem nodeFingerprintView_ne (identities : String → Option String) (node : ObservationNodeV1) :
    nodeFingerprintView L identities node ≠ .undefined := nofun

/-- Sorted by their hashes, the node views of variants have the same texts. -/
theorem Variant.nodeTexts (hd : Digests P L) (h : Variant rename graph graph')
    {identities identities' : String → Option String}
    (hc : Carried rename graph.nodeIds identities identities') (hw : graph.WellFormed) :
    (sortBy L (payloadHash P) (graph'.nodes.map (nodeFingerprintView L identities'))).map
        canonicalText =
      (sortBy L (payloadHash P) (graph.nodes.map (nodeFingerprintView L identities))).map
        canonicalText := by
  refine (map_sortBy_eq_of_perm (h.nodeViews hd hc hw).symm ?_).symm
  intro view hview view' hview' hkey
  obtain ⟨node, -, rfl⟩ := List.mem_map.mp hview
  obtain ⟨node', -, rfl⟩ := List.mem_map.mp hview'
  have hne := nodeFingerprintView_ne (L := L) identities
  rw [hd.normalized _ (ascii_payloadHash hd (hne node)),
    hd.normalized _ (ascii_payloadHash hd (hne node'))] at hkey
  exact canonicalText_of_payloadHash hd (hne node) (hne node') hkey

theorem canonicalText_arr_congr {items items' : List JsValue}
    (h : items.map canonicalText = items'.map canonicalText) :
    canonicalText (.arr items) = canonicalText (.arr items') := by
  rw [canonicalText_arr, canonicalText_arr, canonicalItems_eq, canonicalItems_eq, h]

theorem canonicalFields_append_congr (fields : List (String × JsValue)) (key : String)
    {items items' : List JsValue} (h : canonicalText (.arr items) = canonicalText (.arr items')) :
    canonicalFields (fields ++ [(key, .arr items)]) =
      canonicalFields (fields ++ [(key, .arr items')]) := by
  induction fields with
  | nil =>
    have hcons (items : List JsValue) := canonicalFields_cons (v := .arr items) nofun key []
    rw [List.nil_append, List.nil_append, hcons, hcons, h]
  | cons field fields ih =>
    rw [List.cons_append, List.cons_append, canonicalFields, canonicalFields, ih]

theorem canonicalText_append_congr (fields : List (String × JsValue)) (key : String)
    {items items' : List JsValue} (h : canonicalText (.arr items) = canonicalText (.arr items')) :
    canonicalText (.obj (fields ++ [(key, .arr items)])) =
      canonicalText (.obj (fields ++ [(key, .arr items')])) := by
  rw [canonicalText_obj, canonicalText_obj, canonicalFields_append_congr fields key h]

theorem Variant.fingerprintView (hd : Digests P L) (h : Variant rename graph graph')
    (hw : graph.WellFormed) (hw' : graph'.WellFormed) (web : WebV1Semantics) :
    canonicalText (Exploration.fingerprintView P L web graph') =
      canonicalText (Exploration.fingerprintView P L web graph) := by
  have hc := h.stable hd hw hw'
  have hnodes := canonicalText_arr_congr (h.nodeTexts hd hc hw)
  rw [Exploration.fingerprintView, Exploration.fingerprintView, h.target, h.rootNodes hd hc hw]
  exact canonicalText_append_congr [_, _, _] "nodes" hnodes

theorem Variant.fingerprint (hd : Digests P L) (h : Variant rename graph graph')
    (hvalid : Valid L graph) (hvalid' : Valid L graph') :
    fingerprintObservationGraphV1 P L graph' = fingerprintObservationGraphV1 P L graph := by
  have hw := (wellFormed_of_validate hvalid).2
  have hw' := (wellFormed_of_validate hvalid').2
  have hweb : requireWebV1Semantics L graph' = requireWebV1Semantics L graph := by
    unfold requireWebV1Semantics requireGraphExtension findGraphExtension
    rw [h.extensions]
  unfold fingerprintObservationGraphV1
  rw [hvalid, hvalid', Foundation.ok_bind, Foundation.ok_bind, hweb]
  refine bind_congr fun web => ?_
  have hne (graph : ObservationGraphV1) :
      Exploration.fingerprintView P L web graph ≠ .undefined := nofun
  have hhash := (canonicalPayloadHash_eq_iff hd.injective (hne graph') (hne graph)).mpr
    (h.fingerprintView hd hw hw' web)
  rw [payloadHash, payloadHash, hhash]

end Views

/-! ## Prompt views -/

theorem redactValue_eq {value value' : StateValue} (h : SecretValue value value') :
    redactValue value' = redactValue value := by
  unfold SecretValue at h
  split at h
  · rfl
  · rw [h]

theorem redactStringState_eq {state state' : List (String × StateValue)}
    (h : List.Forall₂ (fun entry entry' => entry'.1 = entry.1 ∧ SecretValue entry.2 entry'.2)
      state state') : redactStringState state' = redactStringState state := by
  refine congrArg assigned (map_eq_of_forall₂ h ?_)
  rintro entry - entry' ⟨hkey, hvalue⟩
  rw [hkey, redactValue_eq hvalue]

theorem SecretNode.view (L : ObservationLibrary) {node node' : ObservationNodeV1}
    (h : SecretNode node node') : nodePromptView L node' = nodePromptView L node := by
  unfold SecretNode at h
  split at h
  next hs =>
    obtain ⟨hstate, hrest⟩ := h
    have hredacted := redactStringState_eq hstate
    rw [hrest]
    simp only [nodePromptView, if_pos hs, hredacted]
  next => rw [h]

/-- The nodes of a prompt view are the views of the nodes, in the order of their identifiers. -/
theorem map_sortBy_nodePromptView (L : ObservationLibrary) (nodes : List ObservationNodeV1) :
    (sortBy L (·.id) nodes).map (nodePromptView L) =
      sortBy L (·.id) (nodes.map (nodePromptView L)) :=
  List.map_insertionSort _ _ (nodePromptView L) nodes fun _ _ _ _ => Iff.rfl

theorem SecretVariant.promptView {L : ObservationLibrary} {graph graph' : ObservationGraphV1}
    (h : SecretVariant graph graph') (hvalid : Valid L graph) (hvalid' : Valid L graph') :
    observationGraphPromptView L graph' = observationGraphPromptView L graph := by
  have hnodes : graph'.nodes.map (nodePromptView L) = graph.nodes.map (nodePromptView L) :=
    map_eq_of_forall₂ h.nodes fun _ _ _ hn => hn.view L
  have hweb : findWebV1Semantics L graph' = findWebV1Semantics L graph := by
    rw [h.rest]
    rfl
  unfold observationGraphPromptView
  rw [hvalid, hvalid', Foundation.ok_bind, Foundation.ok_bind, hweb]
  refine bind_congr fun web => ?_
  rw [map_sortBy_nodePromptView, map_sortBy_nodePromptView, hnodes, h.rest]

/-! ## Invariance -/

/-- The fingerprint of a valid graph is that of each of its valid variants, and its prompt view is
that of each valid graph with other values and texts in its secret nodes. -/
theorem graph_views_invariant {P : Platform} {L : ObservationLibrary} (hd : Digests P L)
    {graph : ObservationGraphV1} (hvalid : Valid L graph) :
    (∀ rename graph', Valid L graph' → Variant rename graph graph' →
      fingerprintObservationGraphV1 P L graph' = fingerprintObservationGraphV1 P L graph) ∧
    ∀ graph', Valid L graph' → SecretVariant graph graph' →
      observationGraphPromptView L graph' = observationGraphPromptView L graph :=
  ⟨fun _ _ hvalid' h => h.fingerprint hd hvalid hvalid', fun _ hvalid' h =>
    h.promptView hvalid hvalid'⟩

/-! ## A login page -/

/-- The bytes as hexadecimal digits. -/
def hexChars (bytes : List UInt8) : List Char :=
  bytes.flatMap fun b => [Nat.digitChar (b.toNat / 16), Nat.digitChar (b.toNat % 16)]

theorem digitChar_injective :
    ∀ m < 16, ∀ n < 16, Nat.digitChar m = Nat.digitChar n → m = n := by decide

theorem hexChars_injective : Function.Injective hexChars := by
  intro bytes
  induction bytes with
  | nil =>
    rintro (_ | ⟨c, cs⟩) h
    · rfl
    · cases h
  | cons b bs ih =>
    rintro (_ | ⟨c, cs⟩) h
    · cases h
    · obtain ⟨hhigh, h⟩ := List.cons.inj h
      obtain ⟨hlow, h⟩ := List.cons.inj h
      have hb := b.toNat_lt
      have hc := c.toNat_lt
      have hdiv := digitChar_injective _ (by omega) _ (by omega) hhigh
      have hmod := digitChar_injective _ (by omega) _ (by omega) hlow
      have hbyte : b = c := UInt8.toNat_inj.mp (by omega)
      rw [hbyte, ih h]

theorem ascii_hexChars (bytes : List UInt8) : Ascii (String.ofList (hexChars bytes)) := by
  have hdigit : ∀ n < 16, (Nat.digitChar n).toNat < 128 := by decide
  intro c hc
  rw [String.toList_ofList] at hc
  obtain ⟨b, -, hc⟩ := List.mem_flatMap.mp hc
  have hb := b.toNat_lt
  simp only [List.mem_cons, List.not_mem_nil, or_false] at hc
  rcases hc with rfl | rfl
  · exact hdigit _ (by omega)
  · exact hdigit _ (by omega)

/-- Digests that are the bytes themselves. -/
def hexPlatform : Platform where
  sha256Hex bytes := String.ofList (hexChars bytes)
  sha256Base64url bytes := String.ofList (hexChars bytes)
  newUrl _ := none
  bindText _ := none

/-- An environment as it is for lower-case texts of ASCII characters. -/
def plainLibrary : ObservationLibrary where
  toLowerCase text := text
  normalizeNFC text := text
  toText
    | .str text => text
    | _ => ""
  validateExtensions _ _ _ _ := .ok ()

theorem digests_hexPlatform : Digests hexPlatform plainLibrary where
  injective _ _ h := hexChars_injective (String.ofList_injective h)
  ascii bytes := ascii_hexChars bytes
  normalized _ _ := rfl

def loginNode (id role : String) (relations : List ObservationRelationV1) : ObservationNodeV1 where
  id := id
  role := role
  name := none
  value := none
  state := []
  bounds := none
  relations := relations
  source := ⟨"playwright", "dom"⟩
  confidence := 1
  sensitivity := .visible
  extensions := []
  evidenceRefs := []

def passwordNode (id value text : String) : ObservationNodeV1 :=
  { loginNode id "textbox" [] with
    value := some value
    state := [("text", .str text)]
    sensitivity := .secret }

def webExtension : VersionedExtension where
  type := "web/v1"
  version := "1.0.0"
  setSemantics := none
  payload := [("origin", .str "https://shop.test"), ("pathname", .str "/login"),
    ("title", .str "login"), ("viewport", .obj []), ("query", .obj [])]

def loginGraph (graphId capturedAt : String) (roots : List String)
    (nodes : List ObservationNodeV1) : ObservationGraphV1 where
  graphId := graphId
  target := ⟨.web, "shop"⟩
  capturedAt := capturedAt
  rootNodeIds := roots
  nodes := nodes
  evidenceRefs := []
  extensions := [("web/v1", webExtension)]

def firstLogin : ObservationGraphV1 := loginGraph "g-1" "2024-01-01T00:00:00Z" ["form"]
  [loginNode "form" "form" [⟨.child, "password"⟩, ⟨.child, "submit"⟩],
    passwordNode "password" "••••" "4", loginNode "submit" "button" [⟨.controls, "form"⟩]]

def renameLogin (id : String) : String :=
  if id = "form" then "n3" else if id = "password" then "n2" else "n1"

/-- The page at another time, with other identifiers, another order and another password. -/
def secondLogin : ObservationGraphV1 := loginGraph "g-2" "2024-01-02T00:00:00Z" ["n3"]
  [loginNode "n1" "button" [⟨.controls, "n3"⟩], passwordNode "n2" "••••••" "6",
    loginNode "n3" "form" [⟨.child, "n1"⟩, ⟨.child, "n2"⟩]]

def retypedLogin : ObservationGraphV1 :=
  { firstLogin with nodes :=
      [loginNode "form" "form" [⟨.child, "password"⟩, ⟨.child, "submit"⟩],
        passwordNode "password" "•" "1", loginNode "submit" "button" [⟨.controls, "form"⟩]] }

theorem valid_firstLogin : Valid plainLibrary firstLogin := by
  unfold Valid
  decide

theorem valid_secondLogin : Valid plainLibrary secondLogin := by
  unfold Valid
  decide

theorem valid_retypedLogin : Valid plainLibrary retypedLogin := by
  unfold Valid
  decide

theorem variant_secondLogin : Variant renameLogin firstLogin secondLogin where
  target := rfl
  extensions := rfl
  roots := List.Perm.refl _
  nodes := by
    refine ⟨[loginNode "n3" "form" [⟨.child, "n1"⟩, ⟨.child, "n2"⟩],
      passwordNode "n2" "••••••" "6", loginNode "n1" "button" [⟨.controls, "n3"⟩]],
      (List.reverse_perm secondLogin.nodes).symm, ?_⟩
    refine .cons ?_ (.cons ?_ (.cons ?_ .nil))
    · exact ⟨rfl, rfl, rfl, rfl, rfl, List.Perm.swap _ _ _, fun _ => ⟨rfl, rfl⟩⟩
    · exact ⟨rfl, rfl, rfl, rfl, rfl, List.Perm.refl _, fun h => absurd rfl h⟩
    · exact ⟨rfl, rfl, rfl, rfl, rfl, List.Perm.refl _, fun _ => ⟨rfl, rfl⟩⟩

theorem secretVariant_retypedLogin : SecretVariant firstLogin retypedLogin where
  rest := rfl
  nodes := by
    refine .cons rfl (.cons ?_ (.cons rfl .nil))
    exact ⟨.cons ⟨rfl, trivial⟩ .nil, rfl⟩

theorem graph_views_invariant_login :
    Digests hexPlatform plainLibrary ∧ Valid plainLibrary firstLogin ∧
    (fingerprintObservationGraphV1 hexPlatform plainLibrary firstLogin).isOk ∧
    fingerprintObservationGraphV1 hexPlatform plainLibrary secondLogin =
      fingerprintObservationGraphV1 hexPlatform plainLibrary firstLogin ∧
    observationGraphPromptView plainLibrary retypedLogin =
      observationGraphPromptView plainLibrary firstLogin := by
  have h := graph_views_invariant digests_hexPlatform valid_firstLogin
  refine ⟨digests_hexPlatform, valid_firstLogin, by decide, ?_, ?_⟩
  · exact h.1 renameLogin secondLogin valid_secondLogin variant_secondLogin
  · exact h.2 retypedLogin valid_retypedLogin secretVariant_retypedLogin

end Qualigence.Exploration
