import Mathlib.Data.List.Nodup
import Mathlib.Data.List.Pairwise
import Mathlib.Tactic.SplitIfs
import SchemaDelta.Table.Basic

/-!
# References to columns

`Model.ColumnRef.Means` tells which field a reference means: the first one with its identifier or,
where no field has that, the one with its name. The columns of a key are those that its references
mean, one by one, so they do not depend on the order of the fields where names and identifiers are
distinct; and the keys of a table have columns of the table only. The main statement is
`resolveKeys_faithful`.
-/

namespace SchemaDelta

/-! ## The first of a list -/

section FirstWith

variable {α β : Type} {p : α → Prop} {l : List α} {a : α}

/-- The element is the first of the list with the property. -/
def FirstWith (p : α → Prop) (l : List α) (a : α) : Prop :=
  ∃ front back, l = front ++ a :: back ∧ p a ∧ ∀ x ∈ front, ¬p x

theorem find?_eq_some_iff_firstWith {q : α → Bool} (hq : ∀ x, q x = true ↔ p x) :
    l.find? q = some a ↔ FirstWith p l a := by
  simp only [List.find?_eq_some_iff_append, FirstWith, ← hq, Bool.not_eq_true,
    Bool.not_eq_eq_eq_not, Bool.not_true]
  constructor
  · rintro ⟨ha, front, back, hl, hfront⟩
    exact ⟨front, back, hl, ha, hfront⟩
  · rintro ⟨front, back, hl, ha, hfront⟩
    exact ⟨ha, front, back, hl, hfront⟩

theorem find?_eq_none_iff_forall {q : α → Bool} (hq : ∀ x, q x = true ↔ p x) :
    l.find? q = none ↔ ∀ x ∈ l, ¬p x := by
  simp only [List.find?_eq_none, hq]

theorem FirstWith.mem (h : FirstWith p l a) : a ∈ l := by
  obtain ⟨front, back, rfl, -, -⟩ := h
  exact List.mem_append_right _ List.mem_cons_self

/-- Where no two elements have the property, any element with it is the first. -/
theorem firstWith_iff_mem (hone : ∀ x ∈ l, ∀ y ∈ l, p x → p y → x = y) :
    FirstWith p l a ↔ a ∈ l ∧ p a := by
  constructor
  · intro h
    obtain ⟨front, back, -, ha, -⟩ := id h
    exact ⟨h.mem, ha⟩
  · rintro ⟨hmem, ha⟩
    obtain ⟨front, back, rfl, hfront⟩ := List.eq_append_cons_of_mem hmem
    refine ⟨front, back, rfl, ha, fun x hx hpx => hfront ?_⟩
    obtain rfl := hone x (List.mem_append_left _ hx) a hmem hpx ha
    exact hx

/-- What a partial function makes of a list are the images, in order, of those that have one. -/
theorem forall₂_filterMap (f : α → Option β) (l : List α) :
    List.Forall₂ (fun a b => f a = some b) (l.filter fun a => (f a).isSome) (l.filterMap f) := by
  induction l with
  | nil => exact .nil
  | cons a l ih =>
    cases ha : f a with
    | none =>
      rw [List.filterMap_cons_none ha, List.filter_cons_of_neg (by simp [ha])]
      exact ih
    | some b =>
      rw [List.filterMap_cons_some ha, List.filter_cons_of_pos (by simp [ha])]
      exact .cons ha ih

end FirstWith

/-! ## The field that a reference means -/

namespace Model.ColumnRef

variable {fields others : Model.Fields} {ref : Model.ColumnRef} {e : String × Model.Field}
  {m : KeyMember}

/-- The reference has the identifier of the field. -/
def Identifies (ref : Model.ColumnRef) (f : Model.Field) : Prop :=
  ∃ guid, ref.keyId = some guid ∧ f.guid = some guid

/-- The field that a reference means among the fields of a table. -/
inductive Means (fields : Model.Fields) (ref : Model.ColumnRef) (e : String × Model.Field) : Prop
  /-- The first field with its identifier, whatever its name is. -/
  | identifier (hfirst : FirstWith (fun x => ref.Identifies x.2) fields e)
  /-- The field with its name, where no field has its identifier. -/
  | name (hnone : ∀ x ∈ fields, ¬ref.Identifies x.2)
      (hfirst : FirstWith (fun x => ref.name = some x.1) fields e)

theorem Means.mem (h : ref.Means fields e) : e ∈ fields := by
  cases h with
  | identifier hfirst => exact hfirst.mem
  | name _ hfirst => exact hfirst.mem

/-- The search for an identifier. -/
theorem bind_withGuid? (fields : Model.Fields) (ref : Model.ColumnRef) :
    (∀ e, ref.keyId.bind fields.withGuid? = some e ↔
      FirstWith (fun x => ref.Identifies x.2) fields e) ∧
      (ref.keyId.bind fields.withGuid? = none ↔ ∀ x ∈ fields, ¬ref.Identifies x.2) := by
  cases hid : ref.keyId with
  | none => simp [FirstWith, Identifies, hid]
  | some guid =>
    have htest (x : String × Model.Field) :
        (x.2.guid == some guid) = true ↔ ref.Identifies x.2 := by simp [Identifies, hid]
    exact ⟨fun e => find?_eq_some_iff_firstWith htest, find?_eq_none_iff_forall htest⟩

/-- The search for a name. -/
theorem bind_named?_eq_some_iff :
    ref.name.bind fields.named? = some e ↔
      FirstWith (fun x => ref.name = some x.1) fields e := by
  cases hname : ref.name with
  | none => simp [FirstWith]
  | some name =>
    have htest (x : String × Model.Field) : (x.1 == name) = true ↔ some name = some x.1 := by
      rw [beq_iff_eq, Option.some_inj, eq_comm]
    exact find?_eq_some_iff_firstWith htest

/-- A reference is resolved to the name and the activation of the field that it means. -/
theorem resolve?_eq_some_iff :
    ref.resolve? fields = some m ↔ ∃ e, ref.Means fields e ∧ m = ⟨e.1, e.2.active⟩ := by
  obtain ⟨hsome, hnone⟩ := bind_withGuid? fields ref
  simp only [resolve?, Option.map_eq_some_iff, eq_comm (a := m)]
  refine exists_congr fun e => and_congr_left fun _ => ?_
  cases hid : ref.keyId.bind fields.withGuid? with
  | some x =>
    have hx := (hsome x).1 hid
    show some x = some e ↔ _
    constructor
    · intro h
      obtain rfl := Option.some.inj h
      exact .identifier hx
    · rintro (hfirst | ⟨hno, -⟩)
      · rw [← hid, (hsome e).2 hfirst]
      · obtain ⟨_, _, -, hp, -⟩ := id hx
        exact absurd hp (hno x hx.mem)
  | none =>
    have hno := hnone.1 hid
    show ref.name.bind fields.named? = some e ↔ _
    rw [bind_named?_eq_some_iff]
    constructor
    · exact .name hno
    · rintro (hfirst | ⟨-, hfirst⟩)
      · obtain ⟨_, _, -, hp, -⟩ := id hfirst
        exact absurd hp (hno e hfirst.mem)
      · exact hfirst

/-- The reference means a field. -/
def Resolvable (fields : Model.Fields) (ref : Model.ColumnRef) : Prop :=
  ∃ e, ref.Means fields e

theorem isSome_resolve?_iff : (ref.resolve? fields).isSome ↔ ref.Resolvable fields := by
  rw [Option.isSome_iff_exists]
  constructor
  · rintro ⟨m, hm⟩
    obtain ⟨e, he, -⟩ := resolve?_eq_some_iff.1 hm
    exact ⟨e, he⟩
  · rintro ⟨e, he⟩
    exact ⟨_, resolve?_eq_some_iff.2 ⟨e, he, rfl⟩⟩

instance (fields : Model.Fields) : DecidablePred (Resolvable fields) := fun _ =>
  decidable_of_iff _ isSome_resolve?_iff

/-! ### The order of the fields -/

/-- Where identifiers are distinct, each belongs to one field. -/
theorem eq_of_guid_eq {x y : String × Model.Field} {guid : String}
    (hguids : (fields.filterMap fun e => e.2.guid).Nodup) (hx : x ∈ fields) (hy : y ∈ fields)
    (hxguid : x.2.guid = some guid) (hyguid : y.2.guid = some guid) : x = y := by
  by_contra hne
  have : Std.Symm fun a b : String × Model.Field =>
      ∀ g, a.2.guid = some g → ∀ h, b.2.guid = some h → g ≠ h :=
    ⟨fun _ _ hab g hg h hh => (hab h hh g hg).symm⟩
  exact (List.pairwise_filterMap.1 hguids).forall hx hy hne guid hxguid guid hyguid rfl

/-- Where names and identifiers are distinct, a reference means whatever field it fits. -/
theorem means_iff_mem (hnames : (fields.map Prod.fst).Nodup)
    (hguids : (fields.filterMap fun e => e.2.guid).Nodup) :
    ref.Means fields e ↔ (e ∈ fields ∧ ref.Identifies e.2) ∨
      ((∀ x ∈ fields, ¬ref.Identifies x.2) ∧ e ∈ fields ∧ ref.name = some e.1) := by
  have hbyGuid : ∀ x ∈ fields, ∀ y ∈ fields, ref.Identifies x.2 → ref.Identifies y.2 → x = y := by
    rintro x hx y hy ⟨guid, hid, hxguid⟩ ⟨_, hid', hyguid⟩
    obtain rfl := Option.some.inj (hid.symm.trans hid')
    exact eq_of_guid_eq hguids hx hy hxguid hyguid
  have hbyName : ∀ x ∈ fields, ∀ y ∈ fields, ref.name = some x.1 → ref.name = some y.1 → x = y := by
    intro x hx y hy hxname hyname
    exact List.inj_on_of_nodup_map hnames hx hy (Option.some.inj (hxname.symm.trans hyname))
  constructor
  · rintro (hfirst | ⟨hno, hfirst⟩)
    · exact .inl ((firstWith_iff_mem hbyGuid).1 hfirst)
    · exact .inr ⟨hno, (firstWith_iff_mem hbyName).1 hfirst⟩
  · rintro (h | ⟨hno, h⟩)
    · exact .identifier ((firstWith_iff_mem hbyGuid).2 h)
    · exact .name hno ((firstWith_iff_mem hbyName).2 h)

/-- Where names and identifiers are distinct, the order of the fields does not matter. -/
theorem resolve?_perm (hperm : fields.Perm others) (hnames : (fields.map Prod.fst).Nodup)
    (hguids : (fields.filterMap fun e => e.2.guid).Nodup) :
    ref.resolve? others = ref.resolve? fields := by
  have hnames' : (others.map Prod.fst).Nodup := (hperm.map _).nodup_iff.1 hnames
  have hguids' : (others.filterMap fun e => e.2.guid).Nodup :=
    (hperm.filterMap _).nodup_iff.1 hguids
  refine Option.ext fun m => ?_
  simp only [resolve?_eq_some_iff, means_iff_mem hnames hguids, means_iff_mem hnames' hguids',
    hperm.mem_iff]

end Model.ColumnRef

/-! ## The columns of a key -/

section Resolution

variable {refs : List Model.ColumnRef} {fields : Model.Fields}

/-- The columns of a key are what its references mean, in their order, without those that mean
nothing. -/
theorem forall₂_resolveKeys (refs : List Model.ColumnRef) (fields : Model.Fields) :
    List.Forall₂ (fun ref m => ∃ e, ref.Means fields e ∧ m = ⟨e.1, e.2.active⟩)
      (refs.filter fun ref => ref.Resolvable fields) (resolveKeys refs fields) := by
  have hfilter : (refs.filter fun ref => decide (ref.Resolvable fields)) =
      refs.filter fun ref => (ref.resolve? fields).isSome :=
    List.filter_congr fun ref _ => by
      rw [Bool.eq_iff_iff, decide_eq_true_iff, Model.ColumnRef.isSome_resolve?_iff]
  rw [hfilter]
  exact (forall₂_filterMap (Model.ColumnRef.resolve? fields) refs).imp fun _ _ h =>
    Model.ColumnRef.resolve?_eq_some_iff.1 h

/-- Each column of a key is one of the fields. -/
theorem exists_of_mem_resolveKeys {m : KeyMember} (h : m ∈ resolveKeys refs fields) :
    ∃ e ∈ fields, m = ⟨e.1, e.2.active⟩ := by
  obtain ⟨ref, -, hm⟩ := List.mem_filterMap.1 h
  obtain ⟨e, he, hme⟩ := Model.ColumnRef.resolve?_eq_some_iff.1 hm
  exact ⟨e, he.mem, hme⟩

/-- A reference that means nothing is left out, and nothing else changes. -/
theorem resolveKeys_dropped {ref : Model.ColumnRef} (h : ¬ref.Resolvable fields)
    (front back : List Model.ColumnRef) :
    resolveKeys (front ++ ref :: back) fields = resolveKeys (front ++ back) fields := by
  have hnone : ref.resolve? fields = none := by
    rw [← Option.not_isSome_iff_eq_none, Model.ColumnRef.isSome_resolve?_iff]
    exact h
  rw [resolveKeys, resolveKeys, List.filterMap_append, List.filterMap_append,
    List.filterMap_cons_none hnone]

theorem resolveKeys_perm {others : Model.Fields} (hperm : fields.Perm others)
    (hnames : (fields.map Prod.fst).Nodup)
    (hguids : (fields.filterMap fun e => e.2.guid).Nodup) (refs : List Model.ColumnRef) :
    resolveKeys refs others = resolveKeys refs fields :=
  List.filterMap_congr fun _ _ => Model.ColumnRef.resolve?_perm hperm hnames hguids

end Resolution

/-! ## The keys of a table -/

/-- The column as a member of a key. -/
def Column.member (c : Column) : KeyMember := ⟨c.name, c.active⟩

theorem Model.Fields.map_member_columns (fields : Model.Fields) (required : List String)
    (ctx : Context) :
    (fields.columns required ctx).map Column.member = fields.map fun e => ⟨e.1, e.2.active⟩ := by
  rw [columns, List.map_map]
  rfl

/-- What the keys of a table are made of. -/
structure Table.KeysClosed (t : Table) : Prop where
  /-- The columns of a key are columns of the table, as active as these are. -/
  keys : ∀ k ∈ t.keys, k.columns ⊆ t.columns.map Column.member
  /-- A key has a column. -/
  columns_ne_nil : ∀ k ∈ t.keys, k.columns ≠ []
  /-- Before a primary key stand only primary keys. -/
  primary_first : t.keys.Pairwise fun k l => l.kind = .primary → k.kind = .primary
  /-- A table is partitioned by columns of the table. -/
  partitions : ∀ p ∈ t.partitioning, p.keys ⊆ t.columns.map Column.member
  /-- Partitions are partitioned by columns of the table. -/
  subpartitions : ∀ p ∈ t.partitioning, p.subpartitionKeys ⊆ t.columns.map Column.member

/-- The columns that references mean, as members of keys. -/
theorem resolveKeys_subset (refs : List Model.ColumnRef) (fields : Model.Fields) :
    resolveKeys refs fields ⊆ fields.map fun e => ⟨e.1, e.2.active⟩ := by
  intro m hm
  obtain ⟨e, he, rfl⟩ := exists_of_mem_resolveKeys hm
  exact List.mem_map_of_mem he

theorem Partitioning.keys_ofNode_subset (p : Model.Partitioning) (fields : Model.Fields) :
    (ofNode p fields).keys ⊆ fields.map fun e => ⟨e.1, e.2.active⟩ := by
  by_cases hcomposite : (resolveKeys p.compositeKey fields).isEmpty = true
  · have hkeys : (ofNode p fields).keys = resolveKeys p.key fields := by simp [ofNode, hcomposite]
    exact hkeys ▸ resolveKeys_subset p.key fields
  · have hkeys : (ofNode p fields).keys = resolveKeys p.compositeKey fields := by
      simp [ofNode, hcomposite]
    exact hkeys ▸ resolveKeys_subset p.compositeKey fields

/-- The columns of the subpartitions are their own ones, or those of the partitions stand in. -/
theorem Partitioning.subpartitionKeys_ofNode (p : Model.Partitioning) (fields : Model.Fields) :
    (ofNode p fields).subpartitionKeys = resolveKeys p.subpartitionKey fields ∨
      (ofNode p fields).subpartitionKeys = resolveKeys p.key fields ∨
      (ofNode p fields).subpartitionKeys = (ofNode p fields).keys := by
  by_cases hown : (resolveKeys p.subpartitionKey fields).isEmpty = true
  · by_cases hplain : (resolveKeys p.key fields).isEmpty = true
    · exact .inr (.inr (by simp [ofNode, hown, hplain]))
    · exact .inr (.inl (by simp [ofNode, hown, hplain]))
  · exact .inl (by simp [ofNode, hown])

theorem Partitioning.subpartitionKeys_ofNode_subset (p : Model.Partitioning)
    (fields : Model.Fields) :
    (ofNode p fields).subpartitionKeys ⊆ fields.map fun e => ⟨e.1, e.2.active⟩ := by
  rcases subpartitionKeys_ofNode p fields with h | h | h
  · exact h ▸ resolveKeys_subset p.subpartitionKey fields
  · exact h ▸ resolveKeys_subset p.key fields
  · exact h ▸ keys_ofNode_subset p fields

/-- The keys of a table: the primary ones come first, and all have columns of the table. -/
theorem Model.Table.keyConstraints_columns (n : Model.Table) :
    (∀ k ∈ n.keyConstraints, k.columns ⊆ n.fields.map fun e => ⟨e.1, e.2.active⟩) ∧
      n.keyConstraints.Pairwise fun k l => l.kind = .primary → k.kind = .primary := by
  constructor
  · intro k hk
    rcases List.mem_append.1 (List.mem_filter.1 hk).1 with hk | hk
    · obtain ⟨spec, -, rfl⟩ := List.mem_map.1 hk
      exact resolveKeys_subset spec.primary n.fields
    · obtain ⟨spec, -, rfl⟩ := List.mem_map.1 hk
      exact resolveKeys_subset spec.unique n.fields
  · refine List.Pairwise.filter _ (List.pairwise_append.2 ⟨?_, ?_, ?_⟩)
    · exact List.pairwise_map.2 (List.pairwise_of_forall fun _ _ _ => rfl)
    · exact List.pairwise_map.2 (List.pairwise_of_forall fun _ _ h => nomatch h)
    · intro k hk l _ _
      obtain ⟨spec, -, rfl⟩ := List.mem_map.1 hk
      rfl

theorem Table.keysClosed_ofNode {n : Model.Table} {ctx : Context} {t : Table}
    (h : ofNode? n ctx = some t) : t.KeysClosed := by
  obtain ⟨name, -, rfl⟩ := Option.map_eq_some_iff.1 h
  obtain ⟨hkeys, hfirst⟩ := n.keyConstraints_columns
  have hcolumns := n.fields.map_member_columns n.required ctx
  exact
    { keys := fun k hk => hcolumns ▸ hkeys k hk
      columns_ne_nil := fun k hk => Model.Table.columns_ne_nil_of_mem hk
      primary_first := hfirst
      partitions := fun p hp => by
        obtain ⟨q, -, rfl⟩ := Option.map_eq_some_iff.1 hp
        exact hcolumns ▸ Partitioning.keys_ofNode_subset q n.fields
      subpartitions := fun p hp => by
        obtain ⟨q, -, rfl⟩ := Option.map_eq_some_iff.1 hp
        exact hcolumns ▸ Partitioning.subpartitionKeys_ofNode_subset q n.fields }

/-- References among any fields: the columns are what the references mean, in order, each a field
with its activation; a reference that means nothing changes nothing; and the order of the fields
does not matter where names and identifiers are distinct. So the keys of every table, and those of
its partitions, have columns of the table only. -/
theorem resolveKeys_faithful (refs : List Model.ColumnRef) (fields : Model.Fields) :
    List.Forall₂ (fun ref m => ∃ e, ref.Means fields e ∧ m = ⟨e.1, e.2.active⟩)
        (refs.filter fun ref => ref.Resolvable fields) (resolveKeys refs fields) ∧
      (∀ m ∈ resolveKeys refs fields, ∃ e ∈ fields, m = ⟨e.1, e.2.active⟩) ∧
      (∀ front ref back, refs = front ++ ref :: back → ¬ref.Resolvable fields →
        resolveKeys refs fields = resolveKeys (front ++ back) fields) ∧
      (∀ others, fields.Perm others → (fields.map Prod.fst).Nodup →
        (fields.filterMap fun e => e.2.guid).Nodup →
        resolveKeys refs others = resolveKeys refs fields) ∧
      ∀ n ctx t, Table.ofNode? n ctx = some t → t.KeysClosed := by
  refine ⟨forall₂_resolveKeys refs fields, fun m => exists_of_mem_resolveKeys, ?_,
    fun others hperm hnames hguids => resolveKeys_perm hperm hnames hguids refs,
    fun n ctx t => Table.keysClosed_ofNode⟩
  rintro front ref back rfl hnone
  exact resolveKeys_dropped hnone front back

/-- A reference by the identifier of one column with the name of another one, a reference to
nothing, and a reference by name, with the columns in both orders; and a table with these keys. -/
theorem resolveKeys_faithful_swapped :
    ∃ (refs front back : List Model.ColumnRef) (lost : Model.ColumnRef)
      (fields others : Model.Fields) (n : Model.Table) (t : Table),
      refs = front ++ lost :: back ∧ ¬lost.Resolvable fields ∧
      resolveKeys refs fields = resolveKeys (front ++ back) fields ∧
      fields.Perm others ∧ (fields.map Prod.fst).Nodup ∧
      (fields.filterMap fun e => e.2.guid).Nodup ∧
      resolveKeys refs others = resolveKeys refs fields ∧
      resolveKeys refs fields = [⟨"b", false⟩, ⟨"a", true⟩] ∧
      Table.ofNode? n {} = some t ∧ t.KeysClosed ∧
      t.keys.map TableKey.columns = [[⟨"a", true⟩], [⟨"b", false⟩, ⟨"a", true⟩]] := by
  let byGuid : Model.ColumnRef := { keyId := some "gb", name := some "a" }
  let lost : Model.ColumnRef := { keyId := some "gone" }
  let byName : Model.ColumnRef := { name := some "a" }
  let a : String × Model.Field := ("a", { guid := some "ga" })
  let b : String × Model.Field := ("b", { guid := some "gb", active := false })
  let n : Model.Table :=
    { name := some "t"
      fields := [a, b]
      primaryKeys := [{ primary := [lost] }, { primary := [byName] }]
      uniqueKeys := [{ unique := [byGuid, lost, byName] }] }
  obtain ⟨-, -, hdropped, hperm, hclosed⟩ :=
    resolveKeys_faithful [byGuid, lost, byName] [a, b]
  have hlost : ¬lost.Resolvable [a, b] := by decide +kernel
  have hnames : ([a, b].map Prod.fst).Nodup := by decide
  have hguids : ([a, b].filterMap fun e => e.2.guid).Nodup := by decide
  exact ⟨_, [byGuid], [byName], lost, [a, b], [b, a], n, _, rfl, hlost,
    hdropped [byGuid] lost [byName] rfl hlost, .swap b a [], hnames, hguids,
    hperm _ (.swap b a []) hnames hguids, by decide +kernel, rfl, hclosed n {} _ rfl,
    by decide +kernel⟩

end SchemaDelta
