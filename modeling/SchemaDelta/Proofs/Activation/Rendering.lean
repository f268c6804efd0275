import SchemaDelta.Proofs.Activation.Hydration
import SchemaDelta.Proofs.Script.Sealed

/-!
# What is switched off is the text of what is switched on

An inactive parent writes its members plainly and in their order, whatever their activation, and so
does an active parent whose members are all active. So each clause of an inactive entity has the
text that it has in the activated entity, and the whole statement differs by its comment only.
-/

namespace SchemaDelta

open Sql Text

/-- The fragment with the same text, not active. -/
def Sql.Fragment.muted (u : Fragment) : Fragment := ⟨u.text, false⟩

/-! ## Lists of members -/

/-- Members that are all active are joined as in an inactive parent. -/
theorem composite_activated {on off : List Fragment} (hon : ∀ m ∈ on, m.active = true)
    (htext : off.map Fragment.text = on.map Fragment.text) (sep : String) :
    composite off sep false = composite on sep true := by
  rw [composite_inactive, htext, composite_of_active hon]

/-- The quoted names of columns, all of them active. -/
theorem quoted_activated (columns : List KeyMember) :
    (∀ m ∈ (columns.map KeyMember.activated).map KeyMember.quoted, m.active = true) ∧
      (columns.map KeyMember.quoted).map Fragment.text =
        ((columns.map KeyMember.activated).map KeyMember.quoted).map Fragment.text := by
  simp only [List.map_map]
  refine ⟨?_, rfl⟩
  intro m hm
  obtain ⟨c, -, rfl⟩ := List.mem_map.1 hm
  rfl

/-- Active columns are not all inactive. -/
theorem noneActive_of_active {members : List Fragment} (h : ∀ m ∈ members, m.active = true) :
    noneActive members = false := by
  cases members with
  | nil => rfl
  | cons m members => simp [noneActive, h m (by simp)]

theorem columnTuple_activated (columns : List KeyMember) :
    columnTuple (columns.map KeyMember.quoted) false =
      columnTuple ((columns.map KeyMember.activated).map KeyMember.quoted) true := by
  obtain ⟨hon, htext⟩ := quoted_activated columns
  unfold columnTuple
  rw [noneActive_of_active hon, Bool.false_and, Bool.not_false, Bool.and_self,
    composite_activated hon htext]

theorem partitionKeys_activated (columns : List KeyMember) :
    partitionKeys columns false = partitionKeys (columns.map KeyMember.activated) true := by
  unfold partitionKeys
  rw [columnTuple_activated, List.isEmpty_map]

/-! ## Tables -/

theorem KeyMember.noneActive_activated (columns : List KeyMember) :
    KeyMember.noneActive (columns.map KeyMember.activated) = false := by
  cases columns <;> simp [KeyMember.noneActive, KeyMember.activated]

theorem Partitioning.clause?_activated (p : Partitioning) :
    p.clause? false = p.activated.clause? true := by
  have hsub : p.subpartitions false = p.activated.subpartitions true := by
    unfold subpartitions
    rw [partitionKeys_activated]
    rfl
  have htail (scheme : PartitionScheme) : p.tail scheme false = p.activated.tail scheme true := by
    unfold tail
    rw [hsub]
    rfl
  unfold clause?
  rw [partitionKeys_activated]
  simp only [htail]
  rfl

/-- The columns of an activated key, in a table that is active. -/
theorem TableKey.text_activated (k : TableKey) :
    (k.fragment false).text = (k.activated.fragment true).text := by
  unfold fragment
  rw [columnTuple_activated]
  rfl

namespace Table

variable {t : Table}

/-- The members of an activated table are active. -/
theorem members_active (hk : t.foreignKeys = []) : ∀ m ∈ t.activated.members, m.active = true := by
  intro m hm
  simp only [members, activated, hk, List.map_nil, List.append_nil, List.map_map, List.mem_append,
    List.mem_map] at hm
  rcases hm with (⟨c, -, rfl⟩ | ⟨k, -, rfl⟩) | ⟨c, -, rfl⟩
  · rfl
  · simp [TableKey.fragment, TableKey.active, TableKey.activated,
      KeyMember.noneActive_activated]
  · rfl

/-- The members of a deactivated table have the texts of the members of the activated one. -/
theorem members_text (t : Table) :
    t.deactivated.members.map Fragment.text = t.activated.members.map Fragment.text := by
  have hcolumns : (t.columns.map Column.line).map Fragment.text =
      ((t.columns.map Column.activated).map Column.line).map Fragment.text := by
    rw [List.map_map, List.map_map, List.map_map]
    rfl
  have hkeys : (t.keys.map (fun k => k.fragment false)).map Fragment.text =
      ((t.keys.map TableKey.activated).map fun k => k.fragment true).map Fragment.text := by
    rw [List.map_map, List.map_map, List.map_map]
    exact List.map_congr_left fun k _ => k.text_activated
  simp only [members, deactivated, activated, List.map_append, hcolumns, hkeys]

/-- A deactivated table is created by the text that creates the activated one. -/
theorem createText_deactivated (hk : t.foreignKeys = []) :
    t.deactivated.createText = t.activated.createText := by
  have hbody : composite t.deactivated.members ",\n\t" t.deactivated.active =
      composite t.activated.members ",\n\t" t.activated.active :=
    composite_activated (members_active hk) t.members_text _
  have hpartition : (t.partitioning.bind fun p => p.clause? false) =
      (t.partitioning.map Partitioning.activated).bind fun p => p.clause? true := by
    cases t.partitioning with
    -- Not by `rfl`, which compares the two clauses first.
    | none => rw [Option.map_none, Option.bind_none, Option.bind_none]
    | some p => exact p.clause?_activated
  have hoptions : t.deactivated.options = t.activated.options := by
    simp only [options, deactivated, activated, hpartition]
  unfold createText
  rw [hbody, hoptions]
  rfl

/-- A deactivated table comes with the muted statements of the activated one. -/
theorem createUnits_deactivated (hk : t.foreignKeys = []) :
    t.deactivated.createUnits = t.activated.createUnits.map Fragment.muted := by
  have hcreate : (⟨guarded t.deactivated.createText t.ifNotExist nameInUse, false⟩ : Fragment) =
      Fragment.muted ⟨guarded t.activated.createText t.ifNotExist nameInUse, true⟩ := by
    rw [createText_deactivated hk]
    rfl
  have hcomment : t.deactivated.commentUnit?.toList =
      t.activated.commentUnit?.toList.map Fragment.muted := by
    unfold commentUnit? deactivated activated
    cases t.description.filter fun d => !blank d <;> rfl
  have hcolumns : (t.columns.filterMap fun c => c.commentUnit? t.qualifiedName false) =
      ((t.columns.map Column.activated).filterMap
        fun c => c.commentUnit? t.qualifiedName true).map Fragment.muted := by
    rw [List.filterMap_map, List.map_filterMap]
    refine congrArg (fun f => List.filterMap f t.columns) (funext fun c => ?_)
    show c.commentUnit? _ false = (c.activated.commentUnit? _ true).map Fragment.muted
    unfold Column.commentUnit? Column.activated
    cases c.comment.filter fun d => !blank d <;> rfl
  show _ :: t.deactivated.commentUnit?.toList ++ _ = List.map Fragment.muted (_ :: _ ++ _)
  rw [List.map_append, List.map_cons, ← hcomment]
  exact congrArg₂ (fun u us => u :: t.deactivated.commentUnit?.toList ++ us) hcreate hcolumns

/-- The statements of an activated table are live. -/
theorem createUnits_active (t : Table) : ∀ u ∈ t.activated.createUnits, u.active = true := by
  intro u hu
  simp only [createUnits, List.cons_append, List.mem_cons, List.mem_append, Option.mem_toList,
    List.mem_filterMap] at hu
  rcases hu with rfl | hu | ⟨c, hc, hu⟩
  · rfl
  · obtain ⟨d, -, rfl⟩ := Option.map_eq_some_iff.1 hu
    rfl
  · obtain ⟨d, -, rfl⟩ := Option.map_eq_some_iff.1 hu
    obtain ⟨c', -, rfl⟩ := List.mem_map.1 hc
    rfl

end Table

/-! ## Indexes -/

/-- The keys of an activated index have the text that they have in an inactive one. -/
theorem Index.keyBlock_activated (i : Index) : i.keyBlock false = i.activated.keyBlock true := by
  have hon : ∀ m ∈ i.activated.keys.map IndexKey.fragment, m.active = true := by
    intro m hm
    simp only [activated, List.map_map, List.mem_map] at hm
    obtain ⟨k, -, rfl⟩ := hm
    rfl
  have htext : (i.keys.map IndexKey.fragment).map Fragment.text =
      (i.activated.keys.map IndexKey.fragment).map Fragment.text := by
    simp only [activated, List.map_map]
    rfl
  have hempty : i.activated.keys.isEmpty = i.keys.isEmpty := List.isEmpty_map
  unfold keyBlock
  rw [hempty, composite_activated hon htext]
  rfl

/-- An index of an inactive table is the muted index of an active one. -/
theorem Index.statement_activated (i : Index) (table : String) (schema : Option String) :
    i.statement table schema false = (i.activated.statement table schema true).muted := by
  simp only [statement, Fragment.muted, Bool.and_false, i.keyBlock_activated]
  rfl

/-- A deactivated table comes with the muted indexes of the activated one. -/
theorem Table.indexUnits_deactivated (t : Table) :
    t.deactivated.indexUnits = t.activated.indexUnits.map Fragment.muted := by
  simp only [indexUnits, deactivated, activated, List.map_map]
  exact List.map_congr_left fun i _ => i.statement_activated t.name t.schema

/-- The indexes of an activated table are live. -/
theorem Table.indexUnits_active (t : Table) : ∀ u ∈ t.activated.indexUnits, u.active = true := by
  intro u hu
  simp only [indexUnits, activated, List.map_map, List.mem_map] at hu
  obtain ⟨i, -, rfl⟩ := hu
  rfl

/-! ## Views -/

namespace View

variable (v : View)

/-- The sources of the keys do not depend on activation. -/
theorem source?_activated (schema : Option String) (k : ViewKey) :
    k.activated.source? schema = k.source? schema := by
  cases k with
  | expression text => rfl
  | column table name shownAs active => cases table <;> rfl

/-- The text of a key does not depend on its activation. -/
theorem text_activated (schema : Option String) (k : ViewKey) :
    (k.fragment schema).text = (k.activated.fragment schema).text := by
  cases k with
  | expression text => rfl
  | column table name shownAs active => cases table <;> rfl

/-- An activated key is active. -/
theorem fragment_active (schema : Option String) (k : ViewKey) :
    (k.activated.fragment schema).active = true := by
  cases k <;> rfl

/-- The query of a deactivated view is that of the activated one. -/
theorem keyQuery_deactivated : v.deactivated.keyQuery = v.activated.keyQuery := by
  have hon : ∀ m ∈ v.activated.keys.map (ViewKey.fragment v.schema), m.active = true := by
    intro m hm
    simp only [activated, List.map_map, List.mem_map] at hm
    obtain ⟨k, -, rfl⟩ := hm
    exact fragment_active v.schema k
  have htext : (v.keys.map (ViewKey.fragment v.schema)).map Fragment.text =
      (v.activated.keys.map (ViewKey.fragment v.schema)).map Fragment.text := by
    simp only [activated, List.map_map]
    exact List.map_congr_left fun k _ => text_activated v.schema k
  -- The keys of the two views differ, but not their tables.
  have hsources : v.deactivated.sources = v.activated.sources := by
    unfold sources
    simp only [deactivated, activated, List.filterMap_map]
    congr 2
    funext k
    exact (source?_activated v.schema k).symm
  have hkeys : composite (v.keys.map (ViewKey.fragment v.schema)) ",\n\t\t" false =
      composite (v.activated.keys.map (ViewKey.fragment v.schema)) ",\n\t\t" true :=
    composite_activated hon htext _
  unfold keyQuery
  rw [hsources]
  exact congrArg (fun keys => Form.viewSelect.fill (.ofList
    [("keys", keys), ("tableName", join ", " v.activated.sources)])) hkeys

/-- A deactivated view comes with the muted statements of the activated one. -/
theorem createUnits_deactivated :
    v.deactivated.createUnits = v.activated.createUnits.map Fragment.muted := by
  have htext : v.deactivated.createText = v.activated.createText := by
    unfold createText
    rw [keyQuery_deactivated]
    rfl
  have hcomment : v.deactivated.commentUnit?.toList =
      v.activated.commentUnit?.toList.map Fragment.muted := by
    unfold commentUnit? deactivated activated
    cases v.description.filter fun d => !blank d <;> rfl
  unfold createUnits
  rw [htext, hcomment]
  rfl

/-- The statements of an activated view are live. -/
theorem createUnits_active : ∀ u ∈ v.activated.createUnits, u.active = true := by
  intro u hu
  simp only [createUnits, List.mem_cons, Option.mem_toList] at hu
  rcases hu with rfl | hu
  · rfl
  · obtain ⟨d, -, rfl⟩ := Option.map_eq_some_iff.1 hu
    rfl

end View

/-! ## Types -/

/-- A deactivated type is created by the muted statement of the activated one. -/
theorem UserType.createUnit_deactivated (t : UserType) :
    t.deactivated.createUnit = t.activated.createUnit.muted := by
  have htext : t.deactivated.createText = t.activated.createText := by
    unfold createText deactivated activated
    cases t.body with
    | collection c => rfl
    | object attributes =>
      have hon : ∀ m ∈ (attributes.map Column.activated).map Column.attributeLine,
          m.active = true := by
        intro m hm
        simp only [List.map_map, List.mem_map] at hm
        obtain ⟨c, -, rfl⟩ := hm
        rfl
      have hlines : (attributes.map Column.attributeLine).map Fragment.text =
          ((attributes.map Column.activated).map Column.attributeLine).map Fragment.text := by
        simp only [List.map_map]
        rfl
      simp only [UserTypeBody.activated, composite_activated hon hlines]
      rfl
  unfold createUnit Fragment.muted
  rw [htext]
  rfl

end SchemaDelta
