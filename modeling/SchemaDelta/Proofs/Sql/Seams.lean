import Mathlib.Data.List.Infix
import SchemaDelta.Proofs.Sql.Forms
import SchemaDelta.Proofs.Text.Pairs

/-!
# The seams of a filled form

A form has its spaces and parentheses in its literals and in the texts that frame its slots, and an
optional slot that is left out takes its frame along. Whether the next literal fits depends on no
more than the last character before it, on the `Edge`; a tidy value fits everywhere. So the seams of
a form can be checked in one pass over its segments, both ways for each optional slot (`seams`). A
form that passes is tidy however it is filled (`tidy_append_fill`), and all forms pass.
-/

namespace SchemaDelta.Sql

open Text

/-! ## Tidy texts -/

/-- The text does not begin with a space, no two spaces meet in it, and no parentheses are empty. -/
structure TidyFront (s : List Char) : Prop where
  head_ne : s.head? ≠ some ' '
  no_spaces : ¬[' ', ' '] <:+: s
  no_hollow : ¬['(', ')'] <:+: s

/-- The text does not end with a space either. -/
structure Tidy (s : List Char) : Prop extends TidyFront s where
  last_ne : s.getLast? ≠ some ' '

/-- A tidy text that leaves the parentheses around it as they are. -/
structure TidyValue (s : List Char) : Prop extends Tidy s where
  head_ne_close : s.head? ≠ some ')'
  last_ne_open : s.getLast? ≠ some '('

instance decidableTidyValue (s : List Char) : Decidable (TidyValue s) :=
  decidable_of_iff
    (((s.head? ≠ some ' ' ∧ ¬[' ', ' '] <:+: s ∧ ¬['(', ')'] <:+: s) ∧ s.getLast? ≠ some ' ') ∧
      s.head? ≠ some ')' ∧ s.getLast? ≠ some '(')
    ⟨fun h => ⟨⟨⟨h.1.1.1, h.1.1.2.1, h.1.1.2.2⟩, h.1.2⟩, h.2.1, h.2.2⟩,
      fun h => ⟨⟨⟨h.head_ne, h.no_spaces, h.no_hollow⟩, h.last_ne⟩, h.head_ne_close,
        h.last_ne_open⟩⟩

/-! ## Edges -/

/-- What stands in front of a seam: nothing yet, a space, an opening parenthesis, or anything
else. -/
inductive Edge where
  | start
  | space
  | paren
  | other
deriving DecidableEq

namespace Edge

/-- The edge behind a character. -/
def behind (c : Char) : Edge :=
  if c = ' ' then space else if c = '(' then paren else other

/-- The edge behind a text. -/
def ofText (s : List Char) : Edge :=
  s.getLast?.elim start behind

/-- The character may follow. -/
def admits : Edge → Char → Bool
  | start, c | space, c => c ≠ ' '
  | paren, c => c ≠ ')'
  | other, _ => true

/-- The edge behind a literal, if it may follow. -/
def read? : Edge → List Char → Option Edge
  | e, [] => some e
  | e, c :: r => if e.admits c then (behind c).read? r else none

end Edge

/-- The seams of the segments are right behind the given edge, whichever optional slots are
filled. -/
def seams : Edge → List Piece → Bool
  | e, [] => e ≠ .space
  | e, .text t :: r => (e.read? t.toList).any fun d => seams d r
  | e, .slot _ before after :: r =>
    (e.read? before.toList).isSome && ((Edge.other.read? after.toList).any fun d => seams d r) &&
      ((before = "" && after = "") || seams e r)

/-! ## What an edge admits -/

variable {x s : List Char} {c : Char}

theorem Edge.ofText_append_singleton (x : List Char) (c : Char) :
    Edge.ofText (x ++ [c]) = Edge.behind c := by
  simp [Edge.ofText]

namespace TidyFront

theorem nil : TidyFront [] :=
  ⟨by simp, by simp, by simp⟩

/-- A text behind a front is tidy up to its end if it is so alone and the seam is right. -/
theorem append (hx : TidyFront x) (hs : TidyFront s)
    (hspace : x.getLast? = some ' ' → s.head? ≠ some ' ')
    (hparen : x.getLast? = some '(' → s.head? ≠ some ')') : TidyFront (x ++ s) where
  head_ne e := by
    rw [List.head?_append, Option.or_eq_some_iff] at e
    rcases e with e | e
    · exact hx.head_ne e
    · exact hs.head_ne e.2
  no_spaces := not_pair_infix_append hx.no_spaces hs.no_spaces hspace
  no_hollow := not_pair_infix_append hx.no_hollow hs.no_hollow hparen

/-- A character may follow that the edge admits. -/
theorem append_char (hx : TidyFront x) (h : (Edge.ofText x).admits c = true) :
    TidyFront (x ++ [c]) where
  head_ne e := by
    cases x with
    | nil =>
      obtain rfl : c = ' ' := by simpa using e
      exact absurd h (by decide)
    | cons d x => exact hx.head_ne (by simpa using e)
  no_spaces := by
    refine not_pair_infix_append hx.no_spaces (not_pair_infix_singleton c) fun hlast hc => ?_
    obtain rfl : c = ' ' := by simpa using hc
    rw [Edge.ofText, hlast] at h
    exact absurd h (by decide)
  no_hollow := by
    refine not_pair_infix_append hx.no_hollow (not_pair_infix_singleton c) fun hlast hc => ?_
    obtain rfl : c = ')' := by simpa using hc
    rw [Edge.ofText, hlast] at h
    exact absurd h (by decide)

/-- A literal may follow that is read behind the edge. -/
theorem append_read {e : Edge} (hx : TidyFront x) (h : (Edge.ofText x).read? s = some e) :
    TidyFront (x ++ s) ∧ Edge.ofText (x ++ s) = e := by
  induction s generalizing x with
  | nil =>
    rw [List.append_nil]
    exact ⟨hx, Option.some.inj h⟩
  | cons c s ih =>
    rw [Edge.read?] at h
    split_ifs at h with hc
    rw [← Edge.ofText_append_singleton x c] at h
    have hrest := ih (hx.append_char hc) h
    rwa [List.append_assoc, List.singleton_append] at hrest

/-- A value may follow any edge, and what it leaves behind is no edge to mind. -/
theorem append_value (hx : TidyFront x) (hs : TidyValue s) (hne : s ≠ []) :
    TidyFront (x ++ s) ∧ Edge.ofText (x ++ s) = .other := by
  refine ⟨hx.append hs.toTidyFront (fun _ => hs.head_ne) fun _ => hs.head_ne_close, ?_⟩
  obtain ⟨c, hc⟩ := Option.ne_none_iff_exists'.1 (List.getLast?_eq_none_iff.not.2 hne)
  have hspace : c ≠ ' ' := fun h => hs.last_ne (h ▸ hc)
  have hopen : c ≠ '(' := fun h => hs.last_ne_open (h ▸ hc)
  rw [Edge.ofText, List.getLast?_append, hc, Option.some_or, Option.elim_some, Edge.behind,
    if_neg hspace, if_neg hopen]

/-- A front that does not end with a space is tidy. -/
theorem tidy (hx : TidyFront x) (h : Edge.ofText x ≠ .space) : Tidy x :=
  ⟨hx, fun e => h (by rw [Edge.ofText, e]; rfl)⟩

end TidyFront

/-! ## Filled forms -/

/-- The values fill the segment: a plain slot has a value, and the value of a slot is tidy. -/
def Piece.FilledBy (v : SlotValues) : Piece → Prop
  | .text _ => True
  | .slot name before after =>
    (before = "" ∧ after = "" → v.get? name ≠ none) ∧ ∀ t ∈ v.get? name, TidyValue t.toList

instance decidableFilledBy (v : SlotValues) : (p : Piece) → Decidable (p.FilledBy v)
  | .text _ => .isTrue trivial
  | .slot .. => inferInstanceAs (Decidable (_ ∧ _))

/-- No value that is used is empty. -/
theorem SlotValues.ne_nil_of_get? {v : SlotValues} {name t : String} (h : v.get? name = some t) :
    t.toList ≠ [] := by
  rw [get?_eq] at h
  split_ifs at h with hne
  rw [Ne, String.toList_eq_nil_iff, ← Option.some.inj h]
  exact hne

/-- Segments with the right seams keep the text in front of them tidy. -/
theorem tidy_append_fill {v : SlotValues} {ps : List Piece} (hx : TidyFront x)
    (hseams : seams (Edge.ofText x) ps = true) (hv : ∀ p ∈ ps, p.FilledBy v) :
    Tidy (x ++ (ps.map (Piece.fill v)).flatMap String.toList) := by
  induction ps generalizing x with
  | nil => simpa using hx.tidy (of_decide_eq_true hseams)
  | cons p ps ih =>
    obtain ⟨hp, hps⟩ := List.forall_mem_cons.1 hv
    have hrest {y : List Char} (hy : TidyFront y) (h : seams (Edge.ofText y) ps = true) :=
      ih hy h hps
    rw [List.map_cons, List.flatMap_cons, ← List.append_assoc]
    cases p with
    | text t =>
      obtain ⟨e, he, htail⟩ := (Option.any_eq_true ..).1 hseams
      obtain ⟨hfront, rfl⟩ := hx.append_read he
      exact hrest hfront htail
    | slot name before after =>
      rw [seams, Bool.and_eq_true, Bool.and_eq_true, Bool.or_eq_true] at hseams
      obtain ⟨⟨hbefore, hafter⟩, hskip⟩ := hseams
      rw [Piece.fill]
      cases hget : v.get? name with
      | none =>
        -- A plain slot is not left out.
        have hopt : seams (Edge.ofText x) ps = true := by
          refine hskip.resolve_left fun h => ?_
          exact hp.1 (by simpa using h) hget
        simpa using hrest hx hopt
      | some t =>
        obtain ⟨d, hd⟩ := Option.isSome_iff_exists.1 hbefore
        obtain ⟨e, he, htail⟩ := (Option.any_eq_true ..).1 hafter
        obtain ⟨hleft, -⟩ := hx.append_read hd
        obtain ⟨hmiddle, hedge⟩ := hleft.append_value (hp.2 t hget) (SlotValues.ne_nil_of_get? hget)
        rw [← hedge] at he
        obtain ⟨hright, rfl⟩ := hmiddle.append_read he
        simpa [String.toList_append] using hrest hright htail

namespace Form

/-- The seams of all forms are right. -/
theorem seams_segments : ∀ t ∈ all, seams .start t.segments = true := by
  decide +kernel

/-- **What is left out leaves no trace.** A form whose plain slots are filled is tidy, whichever of
its optional slots are filled, if the values that are used are tidy. -/
theorem tidy_fill {t : Template} (ht : t ∈ all) {v : SlotValues}
    (hv : ∀ p ∈ t.segments, p.FilledBy v) : Tidy (t.fill v).toList := by
  have h := tidy_append_fill .nil (seams_segments t ht) hv
  rwa [List.nil_append, ← String.toList_join] at h

/-- The values of a collection type without a size. -/
def unsized : SlotValues :=
  .ofList [("name", "\"T\""), ("collectionType", "TABLE"), ("size", ""),
    ("datatype", "NUMBER (10, 2)"), ("notPersistable", "NOT PERSISTABLE")]

/-- A collection type is tidy without its size. -/
theorem tidy_fill_unsized :
    createCollectionType ∈ all ∧ (∀ p ∈ createCollectionType.segments, p.FilledBy unsized) ∧
      createCollectionType.fill unsized =
        "CREATE OR REPLACE TYPE \"T\" IS TABLE OF (NUMBER (10, 2)) NOT PERSISTABLE;" ∧
      Tidy (createCollectionType.fill unsized).toList := by
  have hmem : createCollectionType ∈ all := by simp [all]
  have hfilled : ∀ p ∈ createCollectionType.segments, p.FilledBy unsized := by decide
  exact ⟨hmem, hfilled, by decide +kernel, tidy_fill hmem hfilled⟩

end Form

end SchemaDelta.Sql
