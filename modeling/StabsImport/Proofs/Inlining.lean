import Mathlib.Algebra.Ring.Parity
import Mathlib.Data.List.Induction
import StabsImport.Proofs.Annotations

/-!
# Sections that are inlined

The last of some breadcrumbs says whether the code that follows is inlined. A boundary stands at
each breadcrumb where this changes, so that boundaries begin and end sections in turn, and those of
the breadcrumbs so far stay what they are whatever follows. Main statement: `markInlined_marks`.
-/

namespace StabsImport.Import

open Document (FunctionDefinition SourceFile)

variable {path : Json} {crumbs before : List Breadcrumb}

/-- Whether the code after the breadcrumbs is inlined, given whether it was before them. -/
def inlinedAfter (path : Json) (inlined : Bool) (crumbs : List Breadcrumb) : Bool :=
  crumbs.getLast?.elim inlined fun c => !c.path.isEqual path

/-- The boundary at a breadcrumb: it ends a section if the code before was inlined. -/
def boundaryAt (inlined : Bool) (crumb : Breadcrumb) : Boundary :=
  ⟨crumb.address, if inlined then endOfInlined else inlinedFrom crumb.path⟩

theorem inlinedAfter_cons (inlined : Bool) (crumb : Breadcrumb) (rest : List Breadcrumb) :
    inlinedAfter path inlined (crumb :: rest) =
      inlinedAfter path (!crumb.path.isEqual path) rest := by
  rw [inlinedAfter, inlinedAfter, List.getLast?_cons]
  cases rest.getLast? <;> rfl

theorem inlinedAfter_concat (inlined : Bool) (before : List Breadcrumb) (crumb : Breadcrumb) :
    inlinedAfter path inlined (before ++ [crumb]) = !crumb.path.isEqual path := by
  rw [inlinedAfter, List.getLast?_concat]
  rfl

theorem inlinedAfter_eq_true :
    inlinedAfter path false crumbs = true ↔
      ∃ last, crumbs.getLast? = some last ∧ last.path.isEqual path = false := by
  rw [inlinedAfter]
  cases crumbs.getLast? <;> simp

theorem boundariesFrom_append (inlined : Bool) (before after : List Breadcrumb) :
    boundariesFrom path inlined (before ++ after) =
      boundariesFrom path inlined before ++
        boundariesFrom path (inlinedAfter path inlined before) after := by
  induction before generalizing inlined with
  | nil => rfl
  | cons crumb rest ih =>
      simp only [inlinedAfter_cons, List.cons_append, boundariesFrom, ih]
      split
      · rfl
      · split <;> rfl

/-- One more breadcrumb adds a boundary just where the flag changes. -/
theorem inlineBoundaries_concat (path : Json) (before : List Breadcrumb) (crumb : Breadcrumb) :
    inlineBoundaries path (before ++ [crumb]) =
      inlineBoundaries path before ++
        if inlinedAfter path false (before ++ [crumb]) = inlinedAfter path false before then []
        else [boundaryAt (inlinedAfter path false before) crumb] := by
  rw [inlineBoundaries, boundariesFrom_append, inlinedAfter_concat, inlineBoundaries]
  congr 1
  rw [boundariesFrom, boundariesFrom]
  cases inlinedAfter path false before <;> cases crumb.path.isEqual path <;> rfl

theorem inlineBoundaries_prefix (h : before <+: crumbs) :
    inlineBoundaries path before <+: inlineBoundaries path crumbs := by
  obtain ⟨after, rfl⟩ := h
  exact ⟨_, (boundariesFrom_append false before after).symm⟩

/-- The number of boundaries tells whether a section is open. -/
theorem odd_length_inlineBoundaries (path : Json) (crumbs : List Breadcrumb) :
    Odd (inlineBoundaries path crumbs).length ↔ inlinedAfter path false crumbs = true := by
  induction crumbs using List.reverseRecOn with
  | nil => simp [inlineBoundaries, boundariesFrom, inlinedAfter]
  | append_singleton before crumb ih =>
      rw [inlineBoundaries_concat]
      split
      · next same => rw [same, List.append_nil, ih]
      · next changes =>
          rw [List.length_append, List.length_singleton, Nat.odd_add_one, ih]
          cases hbefore : inlinedAfter path false before <;> simp_all

/-- A boundary is that of the breadcrumb at which the flag changes after as many changes as there
are boundaries before it. -/
theorem getElem?_inlineBoundaries (path : Json) (crumbs : List Breadcrumb) (k : Nat)
    (b : Boundary) :
    (inlineBoundaries path crumbs)[k]? = some b ↔
      ∃ before crumb after, crumbs = before ++ crumb :: after ∧
        (inlineBoundaries path before).length = k ∧
        inlinedAfter path false (before ++ [crumb]) ≠ inlinedAfter path false before ∧
        b = boundaryAt (inlinedAfter path false before) crumb := by
  constructor
  · intro h
    induction crumbs using List.reverseRecOn with
    | nil => cases h
    | append_singleton crumbs crumb ih =>
        rw [inlineBoundaries_concat] at h
        by_cases hk : k < (inlineBoundaries path crumbs).length
        · rw [List.getElem?_append_left hk] at h
          obtain ⟨before, c, after, rfl, rest⟩ := ih h
          exact ⟨before, c, after ++ [crumb], by simp, rest⟩
        · rw [List.getElem?_append_right (Nat.le_of_not_lt hk)] at h
          split at h
          · cases h
          · next changes =>
              obtain ⟨hlt, hb⟩ := List.getElem?_eq_some_iff.mp h
              rw [List.length_singleton] at hlt
              have hb : boundaryAt (inlinedAfter path false crumbs) crumb = b := by simpa using hb
              exact ⟨crumbs, crumb, [], rfl, by omega, changes, hb.symm⟩
  · rintro ⟨before, crumb, after, rfl, rfl, changes, rfl⟩
    have grows : inlineBoundaries path (before ++ [crumb]) <+:
        inlineBoundaries path (before ++ crumb :: after) :=
      inlineBoundaries_prefix ⟨after, by simp⟩
    obtain ⟨more, hmore⟩ := grows
    rw [← hmore, inlineBoundaries_concat, if_neg changes, List.append_assoc,
      List.getElem?_append_right (Nat.le_refl _), Nat.sub_self]
    rfl

/-! ## Comments -/

/-- Of several comments in one place the last one stands. -/
theorem get?_putComments (kind : CommentKind) (written : List (Int × String)) (c : Comments)
    (place : Int × CommentKind) :
    (putComments kind written c).get? place =
      ((written.filter fun e => (e.1, kind) = place).getLast?.map (·.2)).or (c.get? place) := by
  induction written using List.reverseRecOn with
  | nil => rfl
  | append_singleton written e ih =>
      have last : putComments kind (written ++ [e]) c =
          (putComments kind written c).put (e.1, kind) e.2 := by
        rw [putComments, List.foldl_concat, ← putComments]
      rw [last, List.filter_append]
      by_cases here : (e.1, kind) = place
      · rw [Ledger.get?_put_of_same _ _ (Key.same_of_eq here)]
        simp [here]
      · have apart : Key.same place (e.1, kind) = false := decide_eq_false fun h => here h.symm
        rw [Ledger.get?_put_of_not_same _ _ apart, ih]
        simp [here]

/-! ## What the boundaries say -/

/-- What the boundary with so many others before it says, at this breadcrumb. -/
def boundaryText (k : Nat) (crumb : Breadcrumb) : String :=
  if Even k then "inlined from " ++ crumb.path.plain else "end of inlined section"

/-- The boundaries of some breadcrumbs tell, for each of them, whether the code after it is
inlined. -/
structure TellsSections (path : Json) (crumbs : List Breadcrumb) : Prop where
  /-- Sections begin and end in turn. -/
  alternates : ∀ k b, (inlineBoundaries path crumbs)[k]? = some b →
    ∃ crumb ∈ crumbs, b.comment = boundaryText k crumb
  /-- After each breadcrumb a section is open if that breadcrumb leads to another file. -/
  isOpen : ∀ before, before <+: crumbs →
    (Odd (inlineBoundaries path before).length ↔
      ∃ last, before.getLast? = some last ∧ last.path.isEqual path = false)
  /-- What is told so far is not taken back. -/
  grows : ∀ before, before <+: crumbs →
    inlineBoundaries path before <+: inlineBoundaries path crumbs
  /-- There is a boundary for each change, with the address and the path of the breadcrumb that
  makes it. -/
  changes : ∀ k b, (inlineBoundaries path crumbs)[k]? = some b ↔
    ∃ before crumb after, crumbs = before ++ crumb :: after ∧
      (inlineBoundaries path before).length = k ∧
      inlinedAfter path false (before ++ [crumb]) ≠ inlinedAfter path false before ∧
      b = ⟨crumb.address, boundaryText k crumb⟩

/-- Whether a boundary ends a section is told by how many are before it. -/
theorem boundaryAt_eq (path : Json) (before : List Breadcrumb) (crumb : Breadcrumb) :
    boundaryAt (inlinedAfter path false before) crumb =
      ⟨crumb.address, boundaryText (inlineBoundaries path before).length crumb⟩ := by
  have parity := odd_length_inlineBoundaries path before
  rw [boundaryAt, boundaryText, Boundary.mk.injEq]
  refine ⟨rfl, ?_⟩
  cases hflag : inlinedAfter path false before with
  | false =>
      rw [hflag] at parity
      rw [if_pos (Nat.not_odd_iff_even.mp fun odd => Bool.noConfusion (parity.mp odd))]
      rfl
  | true =>
      rw [hflag] at parity
      rw [if_neg (Nat.not_even_iff_odd.mpr (parity.mpr rfl))]
      rfl

theorem tellsSections (path : Json) (crumbs : List Breadcrumb) : TellsSections path crumbs where
  alternates k b h := by
    obtain ⟨before, crumb, after, rfl, rfl, -, rfl⟩ := (getElem?_inlineBoundaries ..).mp h
    rw [boundaryAt_eq]
    exact ⟨crumb, by simp, rfl⟩
  isOpen before _ := (odd_length_inlineBoundaries path before).trans inlinedAfter_eq_true
  grows before h := inlineBoundaries_prefix h
  changes k b := by
    rw [getElem?_inlineBoundaries]
    constructor
    · rintro ⟨before, crumb, after, rfl, rfl, changes, rfl⟩
      exact ⟨before, crumb, after, rfl, rfl, changes, boundaryAt_eq ..⟩
    · rintro ⟨before, crumb, after, rfl, rfl, changes, rfl⟩
      exact ⟨before, crumb, after, rfl, rfl, changes, (boundaryAt_eq ..).symm⟩

/-- The boundaries of the breadcrumbs of a definition. -/
def boundariesOf (d : FunctionDefinition) (file : SourceFile) : List Boundary :=
  inlineBoundaries (primaryPath d.relativePath file.relativePath) d.breadcrumbs

/-- What the last boundary at an address says. -/
def textAt? (boundaries : List Boundary) (address : Int) : Option String :=
  (boundaries.filter (·.address = address)).getLast?.map (·.comment)

/-- The boundaries of any breadcrumbs tell where code is inlined. Marking a definition writes those
of its own, the last at an address over what is there, and writes no other comment. -/
theorem markInlined_marks (path : Json) (crumbs : List Breadcrumb) (d : FunctionDefinition)
    (file : SourceFile) (s : Session) :
    TellsSections path crumbs ∧
      ∃ comments, markInlined d file s = (.ok (), { s with
          program.comments := comments
          stats.inlineBoundaries := s.stats.inlineBoundaries + (boundariesOf d file).length }) ∧
        (∀ address, comments.get? (address, .pre) =
          (textAt? (boundariesOf d file) address).or (s.program.comments.get? (address, .pre))) ∧
        ∀ address kind, kind ≠ .pre →
          comments.get? (address, kind) = s.program.comments.get? (address, kind) := by
  refine ⟨tellsSections path crumbs,
    putComments .pre (inlinedComments d file) s.program.comments, ?_, fun address => ?_,
    fun address kind other => ?_⟩
  · rw [markInlined_apply, inlinedComments, List.length_map, boundariesOf]
  · rw [get?_putComments, inlinedComments, List.filter_map, List.getLast?_map, Option.map_map,
      textAt?, boundariesOf]
    simp [Function.comp_def]
  · have none : (inlinedComments d file).filter
        (fun e => (e.1, CommentKind.pre) = (address, kind)) = [] := by
      simp [Ne.symm other]
    rw [get?_putComments, none]
    rfl

example : inlineBoundaries (.text "x.c")
    [⟨0, .text "x.c"⟩, ⟨8, .text "y.h"⟩, ⟨16, .text "z.h"⟩, ⟨24, .text "x.c"⟩] =
      [⟨8, "inlined from y.h"⟩, ⟨24, "end of inlined section"⟩] := by
  decide +kernel

end StabsImport.Import
