import Mathlib.Data.List.Induction
import SchemaDelta.Proofs.Activation.LiveKeys

/-!
# The sources of a view

A view that is made of its keys names after `FROM` the table of each column that has one: once, in
the order of first use, and with the text that stands before the column in the list of keys. The
main statement is `View.createText_sources`.
-/

namespace SchemaDelta

open Sql Text

/-! ## First uses -/

/-- A name that comes last is added if it is new. -/
theorem firstUses_append_singleton (names : List String) (n : String) :
    firstUses (names ++ [n]) = if n ∈ names then firstUses names else firstUses names ++ [n] := by
  have hstep : firstUses (names ++ [n]) =
      if (firstUses names).contains n then firstUses names else firstUses names ++ [n] := by
    rw [firstUses, List.foldl_append]
    rfl
  rw [hstep]
  by_cases hn : n ∈ names
  · rw [if_pos hn, if_pos (List.contains_iff_mem.2 (mem_firstUses.2 hn))]
  · rw [if_neg hn, if_neg fun h => hn (mem_firstUses.1 (List.contains_iff_mem.1 h))]

/-- First uses stand in the order in which the names are used first. -/
theorem pairwise_firstUses (names : List String) :
    (firstUses names).Pairwise fun s t => names.idxOf s < names.idxOf t := by
  induction names using List.reverseRecOn with
  | nil => exact .nil
  | append_singleton names n ih =>
    have hkept : (firstUses names).Pairwise fun s t =>
        (names ++ [n]).idxOf s < (names ++ [n]).idxOf t := by
      refine ih.imp_of_mem fun {s t} hs ht hlt => ?_
      rwa [List.idxOf_append_of_mem (mem_firstUses.1 hs),
        List.idxOf_append_of_mem (mem_firstUses.1 ht)]
    rw [firstUses_append_singleton]
    split_ifs with hn
    · exact hkept
    · refine List.pairwise_append.2 ⟨hkept, List.pairwise_singleton _ n, fun s hs t ht => ?_⟩
      obtain rfl := List.mem_singleton.1 ht
      have hlt := List.idxOf_lt_length_iff.2 (mem_firstUses.1 hs)
      rw [List.idxOf_append_of_mem (mem_firstUses.1 hs), List.idxOf_append_of_notMem hn]
      omega

/-! ## The keys and their tables -/

/-- The table of a key is the one of its column. -/
theorem ViewKey.source?_eq_some_iff {k : ViewKey} {schema : Option String} {s : String} :
    k.source? schema = some s ↔ ∃ table name shownAs active,
      k = .column (some table) name shownAs active ∧ s = qualified table schema := by
  constructor
  · intro h
    unfold source? at h
    split at h
    · next table name shownAs active =>
      exact ⟨table, name, shownAs, active, rfl, (Option.some.inj h).symm⟩
    · cases h
  · rintro ⟨table, name, shownAs, active, rfl, rfl⟩
    rfl

namespace View

/-- The tables of the keys, as often as they are used. -/
def uses (v : View) : List String :=
  v.keys.filterMap (ViewKey.source? v.schema)

theorem mem_uses {v : View} {s : String} :
    s ∈ v.uses ↔ ∃ table name shownAs active,
      ViewKey.column (some table) name shownAs active ∈ v.keys ∧ s = qualified table v.schema := by
  rw [uses, List.mem_filterMap]
  constructor
  · rintro ⟨k, hk, hs⟩
    obtain ⟨table, name, shownAs, active, rfl, rfl⟩ := ViewKey.source?_eq_some_iff.1 hs
    exact ⟨table, name, shownAs, active, hk, rfl⟩
  · rintro ⟨table, name, shownAs, active, hk, rfl⟩
    exact ⟨_, hk, rfl⟩

/-- The tables are announced if there are any. -/
theorem fromText_eq (v : View) :
    v.fromText = if v.sources = [] then "" else "\n\tFROM " ++ join ", " v.sources := by
  have hne : ∀ s ∈ v.sources, s ≠ "" := by
    rintro s hs rfl
    exact absurd (quote_mem_source hs) (by decide)
  by_cases hs : v.sources = []
  · rw [if_pos hs, fromText, hs]
    rfl
  · rw [if_neg hs, fromText, framed_of_ne fun h => hs ((join_eq_empty_iff hne).1 h),
      String.append_empty]

/-- A view that is made of its keys. The tables after `FROM` are those of the columns that have one,
each once and in the order of first use; there is no `FROM` without a table; and the text of each
such column begins with one of them. -/
theorem createText_sources (v : View) (h : v.selectStatement = none) :
    ∃ tables : List String,
      v.createText = v.opening ++ "\n\tAS " ++ ("SELECT " ++
        composite (v.keys.map (ViewKey.fragment v.schema)) ",\n\t\t" v.active ++
        if tables = [] then "" else "\n\tFROM " ++ join ", " tables) ∧
      tables.Nodup ∧
      (∀ s, s ∈ tables ↔ ∃ table name shownAs active,
        .column (some table) name shownAs active ∈ v.keys ∧ s = qualified table v.schema) ∧
      tables.Pairwise (fun s t => v.uses.idxOf s < v.uses.idxOf t) ∧
      (tables = [] ↔ ∀ table name shownAs active,
        .column (some table) name shownAs active ∉ v.keys) ∧
      ∀ table name shownAs active, .column (some table) name shownAs active ∈ v.keys →
        ∃ s ∈ tables,
          ((ViewKey.column (some table) name shownAs active).fragment v.schema).text =
            s ++ "." ++ quote name ++ (shownAs.map fun a => " as " ++ quote a).getD "" := by
  have hmem (s : String) : s ∈ v.sources ↔ s ∈ v.uses := mem_firstUses
  refine ⟨v.sources, ?_, nodup_firstUses _, fun s => (hmem s).trans mem_uses,
    pairwise_firstUses v.uses, ?_, ?_⟩
  · rw [createText_eq_keyQuery h, fromText_eq]
  · rw [List.eq_nil_iff_forall_not_mem]
    simp only [hmem, mem_uses]
    constructor
    · intro hnone table name shownAs active hk
      exact hnone _ ⟨table, name, shownAs, active, hk, rfl⟩
    · rintro hnone s ⟨table, name, shownAs, active, hk, -⟩
      exact hnone table name shownAs active hk
  · intro table name shownAs active hk
    exact ⟨_, (hmem _).2 (mem_uses.2 ⟨table, name, shownAs, active, hk, rfl⟩), rfl⟩

/-- Keys of all shapes, with two spellings of one table and a table whose column is deactivated. -/
theorem createText_sources_spelled :
    ∃ (v : View) (tables : List String), v.selectStatement = none ∧
      v.uses = ["\"s\".\"u\"", "\"s\".\"t\"", "\"s\".\"u\""] ∧ tables.Nodup ∧
      (∀ s, s ∈ tables ↔ s ∈ v.uses) ∧
      tables.Pairwise (fun s t => v.uses.idxOf s < v.uses.idxOf t) ∧
      (∃ s ∈ tables, "\"s\".\"u\".\"d\"" = s ++ "." ++ quote "d") ∧
      v.createText = "CREATE VIEW \"s\".\"v\"\n\tAS SELECT 1,\n\t\t\"a\",\n\t\t" ++
        "\"s\".\"u\".\"b\" as \"x\",\n\t\t\"s\".\"u\".\"d\"\n\t\t" ++
        "/* \"s\".\"t\".\"c\" */\n\tFROM \"s\".\"u\", \"s\".\"t\"" := by
  let v : View :=
    { name := "v", schema := some "s"
      keys := [.expression "1", .column none "a" none true,
        .column (some " u") "b" (some "x") true, .column (some "t") "c" none false,
        .column (some "u ") "d" none true] }
  obtain ⟨tables, -, hnodup, hmem, horder, -, hprefix⟩ := createText_sources v rfl
  have hlast : ViewKey.column (some "u ") "d" none true ∈ v.keys :=
    List.mem_of_getElem? (i := 4) rfl
  obtain ⟨s, hs, htext⟩ := hprefix "u " "d" none true hlast
  have huses : v.uses = ["\"s\".\"u\"", "\"s\".\"t\"", "\"s\".\"u\""] := by decide +kernel
  have hd : ((ViewKey.column (some "u ") "d" none true).fragment v.schema).text =
      "\"s\".\"u\".\"d\"" := by decide +kernel
  exact ⟨v, tables, rfl, huses, hnodup, fun s => (hmem s).trans mem_uses.symm, horder,
    ⟨s, hs, hd.symm.trans (htext.trans String.append_empty)⟩, by decide +kernel⟩

end View

end SchemaDelta
