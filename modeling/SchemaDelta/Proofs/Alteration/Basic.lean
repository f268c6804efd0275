import Mathlib.Data.Finset.Card
import Mathlib.Data.Finset.Dedup
import Mathlib.Data.Finset.SDiff
import Mathlib.Tactic.SplitIfs
import SchemaDelta.Proofs.Catalogue.Basic

/-!
# Altering the columns of a table

What the database does with the alterations of a table, on the set of its column names: a new column
and the new name of a renamed one need a name that is free, and all else needs a column that is
there. A `ColumnDiff` says at once which columns come, go and change; `execAll_steps_iff` tells when
its steps, made one after another, carry the old columns to the new ones.

Renamings are followed one by one (`execAll_changes`). What matters is that the name a renaming goes
to is free at its turn, which is the case when neither it nor a later renaming starts from it. In
the other direction the columns are counted: a name that goes twice would leave one too many.
-/

namespace SchemaDelta

/-- A change of a column that stays. -/
inductive ColumnChange where
  | rename (old new : String)
  | modify (column : String)
deriving DecidableEq

/-- An alteration of the columns of a table. -/
inductive Alteration where
  | add (column : String)
  | drop (column : String)
  | change (c : ColumnChange)
deriving DecidableEq

namespace Alteration

/-- The columns after an alteration, unless it fails. -/
def exec : Alteration → Finset String → Option (Finset String)
  | add c, s => if c ∈ s then none else some (insert c s)
  | drop c, s => if c ∈ s then some (s.erase c) else none
  | change (.rename old new), s =>
    if old ∈ s ∧ new ∉ s then some (insert new (s.erase old)) else none
  | change (.modify c), s => if c ∈ s then some s else none

/-- The columns after a list of alterations, unless one of them fails. -/
def execAll : List Alteration → Finset String → Option (Finset String)
  | [], s => some s
  | a :: as, s => (a.exec s).bind (execAll as)

/-- Alterations carry the columns on from one to the next. -/
theorem execAll_eq_foldlM (as : List Alteration) (s : Finset String) :
    execAll as s = as.foldlM (fun s a => a.exec s) s := by
  induction as generalizing s with
  | nil => rfl
  | cons a as ih => exact congrArg _ (funext ih)

theorem execAll_append (as bs : List Alteration) (s : Finset String) :
    execAll (as ++ bs) s = (execAll as s).bind (execAll bs) := by
  simp only [execAll_eq_foldlM, List.foldlM_append, Option.bind_eq_bind]

/-! ## Additions and removals -/

/-- Additions succeed exactly when all their names are free and no name comes twice. -/
theorem execAll_add (cs : List String) (s t : Finset String) :
    execAll (cs.map add) s = some t ↔ cs.Nodup ∧ (∀ c ∈ cs, c ∉ s) ∧ t = s ∪ cs.toFinset := by
  rw [execAll_eq_foldlM, List.foldlM_map]
  exact Catalogue.foldlM_enter_iff cs s t

/-- Removals succeed exactly when all their columns are there and no name comes twice. -/
theorem execAll_drop (cs : List String) (s t : Finset String) :
    execAll (cs.map drop) s = some t ↔ cs.Nodup ∧ (∀ c ∈ cs, c ∈ s) ∧ t = s \ cs.toFinset := by
  rw [execAll_eq_foldlM, List.foldlM_map]
  exact Catalogue.foldlM_strike_iff cs s t

end Alteration

/-! ## Renamings -/

/-- The names that renamings start from. -/
def sources (rs : List (String × String)) : List String :=
  rs.map Prod.fst

/-- The names that renamings go to. -/
def targets (rs : List (String × String)) : List String :=
  rs.map Prod.snd

/-- Each renaming goes to a name that neither it nor a later one starts from. -/
def InOrder : List (String × String) → Prop
  | [] => True
  | r :: rs => r.2 ∉ sources (r :: rs) ∧ InOrder rs

instance InOrder.decidable : (rs : List (String × String)) → Decidable (InOrder rs)
  | [] => inferInstanceAs (Decidable True)
  | r :: rs =>
    have := InOrder.decidable rs
    inferInstanceAs (Decidable (r.2 ∉ sources (r :: rs) ∧ InOrder rs))

/-- The columns when all renamings have been made. -/
def renamed (rs : List (String × String)) (s : Finset String) : Finset String :=
  s \ (sources rs).toFinset ∪ (targets rs).toFinset

/-- What renamings need to be made one after another. -/
structure Renamable (rs : List (String × String)) (s : Finset String) : Prop where
  sources_nodup : (sources rs).Nodup
  sources_mem : ∀ c ∈ sources rs, c ∈ s
  targets_nodup : (targets rs).Nodup
  targets_free : ∀ c ∈ targets rs, c ∉ s \ (sources rs).toFinset
  order : InOrder rs

namespace Renamable

variable {r : String × String} {rs : List (String × String)} {s : Finset String}

/-- The first renaming finds its column. -/
theorem source_mem (h : Renamable (r :: rs) s) : r.1 ∈ s :=
  h.sources_mem r.1 List.mem_cons_self

/-- The first renaming goes to a name that is free. -/
theorem target_free (h : Renamable (r :: rs) s) : r.2 ∉ s := by
  intro hmem
  refine h.targets_free r.2 List.mem_cons_self (Finset.mem_sdiff.2 ⟨hmem, ?_⟩)
  rw [List.mem_toFinset]
  exact h.order.1

/-- After the first renaming the others can be made. -/
theorem tail (h : Renamable (r :: rs) s) : Renamable rs (insert r.2 (s.erase r.1)) := by
  obtain ⟨hsource, hsources⟩ := List.nodup_cons.1 h.sources_nodup
  obtain ⟨htarget, htargets⟩ := List.nodup_cons.1 h.targets_nodup
  refine ⟨hsources, fun c hc => ?_, htargets, fun c hc => ?_, h.order.2⟩
  · refine Finset.mem_insert_of_mem (Finset.mem_erase.2 ⟨?_, ?_⟩)
    · exact fun he => hsource (he ▸ hc)
    · exact h.sources_mem c (List.mem_cons_of_mem _ hc)
  · have hfree := h.targets_free c (List.mem_cons_of_mem _ hc)
    have hne : c ≠ r.2 := fun he => htarget (he ▸ hc)
    simp only [sources, List.map_cons, Finset.mem_sdiff, Finset.mem_insert, Finset.mem_erase,
      List.mem_toFinset, List.mem_cons] at hfree ⊢
    tauto

/-- The first renaming and then the others are all renamings. -/
theorem renamed_tail (h : Renamable (r :: rs) s) :
    renamed rs (insert r.2 (s.erase r.1)) = renamed (r :: rs) s := by
  have horder := h.order.1
  ext x
  simp only [renamed, sources, targets, List.map_cons, List.mem_cons, not_or, Finset.mem_union,
    Finset.mem_sdiff, Finset.mem_insert, Finset.mem_erase, List.mem_toFinset] at horder ⊢
  by_cases hx : x = r.2
  · subst hx
    tauto
  · tauto

end Renamable

/-! ## Changes -/

namespace ColumnChange

/-- The old and the new name of a renaming. -/
def renaming? : ColumnChange → Option (String × String)
  | rename old new => some (old, new)
  | modify _ => none

/-- The renamings in a list, in order. -/
def renamings (cs : List ColumnChange) : List (String × String) :=
  cs.filterMap renaming?

/-- Each modification finds its column, counted from the columns `s` on. -/
def Finds : List ColumnChange → Finset String → Prop
  | [], _ => True
  | rename old new :: cs, s => Finds cs (insert new (s.erase old))
  | modify c :: cs, s => c ∈ s ∧ Finds cs s

instance Finds.decidable :
    (cs : List ColumnChange) → (s : Finset String) → Decidable (Finds cs s)
  | [], _ => inferInstanceAs (Decidable True)
  | rename old new :: cs, s => Finds.decidable cs (insert new (s.erase old))
  | modify c :: cs, s =>
    have := Finds.decidable cs s
    inferInstanceAs (Decidable (c ∈ s ∧ Finds cs s))

/-- Each modification is of a known column or of one that a renaming before it goes to. -/
def Known : List ColumnChange → Finset String → Prop
  | [], _ => True
  | rename _ new :: cs, known => Known cs (insert new known)
  | modify c :: cs, known => c ∈ known ∧ Known cs known

theorem known_append (cs ds : List ColumnChange) (known : Finset String) :
    Known (cs ++ ds) known ↔
      Known cs known ∧ Known ds (known ∪ (targets (renamings cs)).toFinset) := by
  induction cs generalizing known with
  | nil => simp [Known, renamings, targets]
  | cons c cs ih =>
    cases c with
    | rename old new =>
      have hset : insert new known ∪ (targets (renamings cs)).toFinset =
          known ∪ (targets (renamings (rename old new :: cs))).toFinset := by
        ext x
        simp [renamings, renaming?, targets]
      simp only [List.cons_append, Known, ih, hset]
    | modify c =>
      simp only [List.cons_append, Known, ih, and_assoc]
      rfl

theorem known_of_forall {cs : List ColumnChange} {known : Finset String}
    (h : ∀ c, modify c ∈ cs → c ∈ known) : Known cs known := by
  induction cs generalizing known with
  | nil => trivial
  | cons c cs ih =>
    cases c with
    | rename old new =>
      exact ih fun c hc => Finset.mem_insert_of_mem (h c (List.mem_cons_of_mem _ hc))
    | modify c => exact ⟨h c List.mem_cons_self, ih fun c hc => h c (List.mem_cons_of_mem _ hc)⟩

/-- Known columns that no renaming starts from are there when they are modified. -/
theorem Known.finds {cs : List ColumnChange} {known s : Finset String} (h : Known cs known)
    (horder : InOrder (renamings cs)) (hsub : known ⊆ s \ (sources (renamings cs)).toFinset) :
    Finds cs s := by
  induction cs generalizing known s with
  | nil => trivial
  | cons c cs ih =>
    cases c with
    | modify c => exact ⟨(Finset.mem_sdiff.1 (hsub h.1)).1, ih h.2 horder hsub⟩
    | rename old new =>
      obtain ⟨hnew, horder⟩ : InOrder ((old, new) :: renamings cs) := horder
      refine ih h horder fun x hx => ?_
      rw [Finset.mem_sdiff, List.mem_toFinset]
      rcases Finset.mem_insert.1 hx with rfl | hx
      · exact ⟨Finset.mem_insert_self _ _, fun hm => hnew (List.mem_cons_of_mem _ hm)⟩
      · -- A known column is no source, so the renaming does not take it away.
        obtain ⟨hs, hold⟩ := Finset.mem_sdiff.1 (hsub hx)
        have hold : x ∉ sources ((old, new) :: renamings cs) := by rwa [List.mem_toFinset] at hold
        have hne : x ≠ old := fun he => hold (he ▸ List.mem_cons_self)
        exact ⟨Finset.mem_insert_of_mem (Finset.mem_erase.2 ⟨hne, hs⟩),
          fun hm => hold (List.mem_cons_of_mem _ hm)⟩

end ColumnChange

namespace Alteration

open ColumnChange

variable {cs : List ColumnChange} {s t : Finset String}

/-- Renamings that can be made carry the old names to the new ones, whatever is modified between
them. -/
theorem execAll_changes (hfinds : Finds cs s) (h : Renamable (renamings cs) s) :
    execAll (cs.map change) s = some (renamed (renamings cs) s) := by
  induction cs generalizing s with
  | nil => simp [execAll, renamings, renamed, sources, targets]
  | cons c cs ih =>
    cases c with
    | modify c =>
      rw [List.map_cons, execAll, exec, if_pos hfinds.1, Option.bind_some]
      exact ih hfinds.2 h
    | rename old new =>
      have h : Renamable ((old, new) :: renamings cs) s := h
      rw [List.map_cons, execAll, exec, if_pos ⟨h.source_mem, h.target_free⟩, Option.bind_some,
        ih hfinds h.tail, h.renamed_tail]
      rfl

/-- Changes that succeed find their columns and keep the number of columns. Where their renamings
start from different columns, each goes to a name that no later one starts from. -/
theorem of_execAll_changes (h : execAll (cs.map change) s = some t) :
    Finds cs s ∧ t.card = s.card ∧ ((sources (renamings cs)).Nodup →
      (∀ c ∈ sources (renamings cs), c ∈ s) → InOrder (renamings cs)) := by
  induction cs generalizing s with
  | nil =>
    cases h
    exact ⟨trivial, rfl, fun _ _ => trivial⟩
  | cons c cs ih =>
    rw [List.map_cons, execAll] at h
    cases c with
    | modify c =>
      rw [exec] at h
      split_ifs at h with hc
      · obtain ⟨hfinds, hrest⟩ := ih h
        exact ⟨⟨hc, hfinds⟩, hrest⟩
      · cases h
    | rename old new =>
      rw [exec] at h
      split_ifs at h with hc
      · obtain ⟨hfinds, hcard, horder⟩ := ih h
        refine ⟨hfinds, ?_, fun hnodup hthere => ?_⟩
        · rw [hcard, Finset.card_insert_of_notMem fun hn => hc.2 (Finset.mem_of_mem_erase hn),
            Finset.card_erase_add_one hc.1]
        · obtain ⟨hold, hnodup⟩ := List.nodup_cons.1 hnodup
          -- The new name is free, so no renaming from here on starts from it.
          refine ⟨fun hn => hc.2 (hthere new hn), horder hnodup fun c hmem => ?_⟩
          refine Finset.mem_insert_of_mem (Finset.mem_erase.2 ⟨?_, ?_⟩)
          · exact fun he => hold (he ▸ hmem)
          · exact hthere c (List.mem_cons_of_mem _ hmem)
      · cases h

end Alteration

/-! ## All alterations of a table -/

open Alteration ColumnChange

/-- Which columns of a table come, go and change. -/
structure ColumnDiff where
  added : List String
  dropped : List String
  changes : List ColumnChange

namespace ColumnDiff

variable {d : ColumnDiff} {old : Finset String}

/-- The old and the new names of the columns that are renamed, in order. -/
def renames (d : ColumnDiff) : List (String × String) :=
  renamings d.changes

/-- The names that go. -/
def gone (d : ColumnDiff) : List String :=
  d.dropped ++ sources d.renames

/-- The names that come. -/
def fresh (d : ColumnDiff) : List String :=
  d.added ++ targets d.renames

/-- The old names that stay. -/
def kept (d : ColumnDiff) (old : Finset String) : Finset String :=
  old \ d.gone.toFinset

/-- The new columns. -/
def result (d : ColumnDiff) (old : Finset String) : Finset String :=
  d.kept old ∪ d.fresh.toFinset

/-- The alterations one after another: additions, removals and then changes. -/
def steps (d : ColumnDiff) : List Alteration :=
  d.added.map add ++ d.dropped.map drop ++ d.changes.map change

/-- What goes is there, and what comes differs from all that stays and comes. -/
structure Consistent (d : ColumnDiff) (old : Finset String) : Prop where
  gone_mem : ∀ c ∈ d.gone, c ∈ old
  fresh_nodup : d.fresh.Nodup
  fresh_not_kept : ∀ c ∈ d.fresh, c ∉ d.kept old

/-- The steps can be made one after another: each added name is new, no name goes twice, no renaming
goes to a name that it or a later one starts from, and each modified column is there at its turn. -/
structure Sequential (d : ColumnDiff) (old : Finset String) : Prop where
  added_new : ∀ c ∈ d.added, c ∉ old
  gone_nodup : d.gone.Nodup
  order : InOrder d.renames
  finds : Finds d.changes ((old ∪ d.added.toFinset) \ d.dropped.toFinset)

/-- Additions and removals leave the columns that are renamed. -/
theorem mem_of_mem_sources (hmem : ∀ c ∈ d.gone, c ∈ old) (hnodup : d.gone.Nodup) {c : String}
    (hc : c ∈ sources d.renames) : c ∈ (old ∪ d.added.toFinset) \ d.dropped.toFinset := by
  rw [Finset.mem_sdiff, List.mem_toFinset]
  exact ⟨Finset.mem_union_left _ (hmem c (List.mem_append_right _ hc)),
    fun hd => (List.nodup_append.1 hnodup).2.2 c hd c hc rfl⟩

/-- Where as many columns are left as the removals and renamings leave one by one, no name goes
twice. -/
theorem gone_nodup_of_card (hmem : ∀ c ∈ d.gone, c ∈ old)
    (hcard : (d.kept old).card + d.gone.length = old.card) : d.gone.Nodup := by
  have hsub : d.gone.toFinset ⊆ old := fun c hc => hmem c (List.mem_toFinset.1 hc)
  have hle := Finset.card_le_card hsub
  rw [kept, Finset.card_sdiff_of_subset hsub] at hcard
  have hall : d.gone.toFinset.card = d.gone.length := by omega
  exact Multiset.coe_nodup.1 (Multiset.toFinset_card_eq_card_iff_nodup.1 hall)

/-- Steps that can be made one after another end with the new columns. -/
theorem Sequential.execAll_steps (h : d.Sequential old) (hd : d.Consistent old) :
    execAll d.steps old = some (d.result old) := by
  obtain ⟨hadded, htargets, hfresh⟩ := List.nodup_append.1 hd.fresh_nodup
  obtain ⟨hdropped, hsources, -⟩ := List.nodup_append.1 h.gone_nodup
  have hadd : execAll (d.added.map add) old = some (old ∪ d.added.toFinset) :=
    (execAll_add _ _ _).2 ⟨hadded, h.added_new, rfl⟩
  have hdrop : execAll (d.dropped.map drop) (old ∪ d.added.toFinset) =
      some ((old ∪ d.added.toFinset) \ d.dropped.toFinset) := by
    refine (execAll_drop _ _ _).2 ⟨hdropped, fun c hc => ?_, rfl⟩
    exact Finset.mem_union_left _ (hd.gone_mem c (List.mem_append_left _ hc))
  have hrenamable : Renamable d.renames ((old ∪ d.added.toFinset) \ d.dropped.toFinset) := by
    refine ⟨hsources, fun c => mem_of_mem_sources hd.gone_mem h.gone_nodup, htargets,
      fun c hc hmem => ?_, h.order⟩
    have hkept := hd.fresh_not_kept c (List.mem_append_right _ hc)
    have hne : c ∉ d.added := fun ha => hfresh c ha c hc rfl
    simp only [kept, gone, Finset.mem_sdiff, Finset.mem_union, List.mem_toFinset,
      List.mem_append] at hkept hmem
    tauto
  rw [steps, execAll_append, execAll_append, hadd, Option.bind_some, hdrop, Option.bind_some,
    execAll_changes h.finds hrenamable, Option.some_inj]
  -- No added column goes again, because those that go are old.
  ext c
  have hgone := hd.gone_mem c
  have hnew := h.added_new c
  simp only [renamings, renames, renamed, result, kept, gone, fresh, Finset.mem_union,
    Finset.mem_sdiff, List.mem_toFinset, List.mem_append] at hgone ⊢
  tauto

/-- Steps that end with the new columns can be made one after another. -/
theorem Sequential.of_execAll_steps (hd : d.Consistent old)
    (h : execAll d.steps old = some (d.result old)) : d.Sequential old := by
  rw [steps, execAll_append, execAll_append] at h
  obtain ⟨s, hs, hchanges⟩ := Option.bind_eq_some_iff.1 h
  obtain ⟨s', hadd, hdrop⟩ := Option.bind_eq_some_iff.1 hs
  obtain ⟨hadded, hnew, rfl⟩ := (execAll_add _ _ _).1 hadd
  obtain ⟨hdropped, hthere, rfl⟩ := (execAll_drop _ _ _).1 hdrop
  obtain ⟨hfinds, hcard, horder⟩ := of_execAll_changes hchanges
  have hgone : d.gone.Nodup := by
    refine gone_nodup_of_card hd.gone_mem ?_
    -- The new columns are as many as the steps make them.
    have hsub : d.dropped.toFinset ⊆ old ∪ d.added.toFinset :=
      fun c hc => hthere c (List.mem_toFinset.1 hc)
    have hleft : Disjoint (d.kept old) d.fresh.toFinset :=
      Finset.disjoint_right.2 fun c hc => hd.fresh_not_kept c (List.mem_toFinset.1 hc)
    have hright : Disjoint old d.added.toFinset :=
      Finset.disjoint_right.2 fun c hc => hnew c (List.mem_toFinset.1 hc)
    have hle := Finset.card_le_card hsub
    rw [result, Finset.card_union_of_disjoint hleft, Finset.card_sdiff_of_subset hsub,
      List.toFinset_card_of_nodup hd.fresh_nodup] at hcard
    rw [Finset.card_union_of_disjoint hright, List.toFinset_card_of_nodup hadded,
      List.toFinset_card_of_nodup hdropped] at hcard hle
    simp only [gone, fresh, sources, targets, List.length_append, List.length_map] at hcard ⊢
    omega
  exact ⟨hnew, hgone, horder (List.nodup_append.1 hgone).2.1
    fun c => mem_of_mem_sources hd.gone_mem hgone, hfinds⟩

/-- The steps of a consistent diff end with the new columns exactly when they can be made one after
another. -/
theorem execAll_steps_iff (hd : d.Consistent old) :
    execAll d.steps old = some (d.result old) ↔ d.Sequential old :=
  ⟨.of_execAll_steps hd, fun h => h.execAll_steps hd⟩

end ColumnDiff

end SchemaDelta
