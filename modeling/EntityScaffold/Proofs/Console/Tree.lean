import EntityScaffold.Console.Tree
import EntityScaffold.Proofs.Console.Shown
import Mathlib.Data.List.Forall2

/-!
# What is shown of a tree

A tree is shown just if each of its labels is, and then as the lines of its own label and, below
them, the entries of its children, each hung on its branch (`Tree.lines_eq_ok_iff`).
-/

namespace EntityScaffold.Console

/-- Entries one below the other, each hung on its branch. -/
def draw : List (List String) → List String
  | [] => []
  | [last] => hang "└── " "    " last
  | entry :: later => hang "├── " "│   " entry ++ draw later

theorem draw_cons_of_ne_nil (entry : List String) {later : List (List String)} (h : later ≠ []) :
    draw (entry :: later) = hang "├── " "│   " entry ++ draw later := by
  cases later with
  | nil => exact absurd rfl h
  | cons => rfl

/-- The entries of trees: what is shown of each. -/
def ShownEach (children : List Tree) (entries : List (List String)) : Prop :=
  List.Forall₂ (fun child entry => child.lines = .ok entry) children entries

theorem linesOfChildren_eq_ok_iff {children : List Tree} {lines : List String} :
    linesOfChildren children = .ok lines ↔
      ∃ entries, ShownEach children entries ∧ lines = draw entries := by
  induction children generalizing lines with
  | nil =>
    rw [linesOfChildren, Except.ok.injEq]
    constructor
    · rintro rfl
      exact ⟨[], .nil, rfl⟩
    · rintro ⟨entries, hentries, rfl⟩
      obtain rfl := List.forall₂_nil_left_iff.mp hentries
      rfl
  | cons child later ih =>
    -- the last child hangs on a branch of its own
    cases later with
    | nil =>
      rw [linesOfChildren, bind_eq_ok_iff]
      constructor
      · rintro ⟨entry, hentry, hlines⟩
        exact ⟨[entry], .cons hentry .nil, (Except.ok.inj hlines).symm⟩
      · rintro ⟨entries, hentries, rfl⟩
        obtain ⟨entry, later, hentry, hlater, rfl⟩ := List.forall₂_cons_left_iff.mp hentries
        obtain rfl := List.forall₂_nil_left_iff.mp hlater
        exact ⟨entry, hentry, rfl⟩
    | cons second later =>
      rw [linesOfChildren, bind_eq_ok_iff]
      · constructor
        · rintro ⟨entry, hentry, hrest⟩
          obtain ⟨drawn, hdrawn, hlines⟩ := bind_eq_ok_iff.mp hrest
          obtain ⟨entries, hentries, rfl⟩ := ih.mp hdrawn
          have hne : entries ≠ [] := by
            rintro rfl
            cases hentries
          refine ⟨entry :: entries, .cons hentry hentries, ?_⟩
          rw [draw_cons_of_ne_nil entry hne]
          exact (Except.ok.inj hlines).symm
        · rintro ⟨entries, hentries, rfl⟩
          obtain ⟨entry, entries, hentry, hlater, rfl⟩ := List.forall₂_cons_left_iff.mp hentries
          have hne : entries ≠ [] := by
            rintro rfl
            cases hlater
          refine ⟨entry, hentry, bind_eq_ok_iff.mpr ⟨_, ih.mpr ⟨entries, hlater, rfl⟩, ?_⟩⟩
          rw [draw_cons_of_ne_nil entry hne]
          rfl
      · exact fun h => absurd h (by simp)

/-- **Trees.** A tree is shown as its label and, below, what is shown of its children. -/
theorem Tree.lines_eq_ok_iff {label : String} {children : List Tree} {lines : List String} :
    (Tree.node label children).lines = .ok lines ↔
      ∃ shown entries, shownLines label = .ok shown ∧ ShownEach children entries ∧
        lines = shown ++ draw entries := by
  rw [Tree.lines, bind_eq_ok_iff]
  constructor
  · rintro ⟨shown, hshown, hrest⟩
    obtain ⟨drawn, hdrawn, hlines⟩ := bind_eq_ok_iff.mp hrest
    obtain ⟨entries, hentries, rfl⟩ := linesOfChildren_eq_ok_iff.mp hdrawn
    exact ⟨shown, entries, hshown, hentries, (Except.ok.inj hlines).symm⟩
  · rintro ⟨shown, entries, hshown, hentries, rfl⟩
    refine ⟨shown, hshown, bind_eq_ok_iff.mpr ⟨draw entries, ?_, rfl⟩⟩
    exact linesOfChildren_eq_ok_iff.mpr ⟨entries, hentries, rfl⟩

/-- Each of some trees can be shown just if they can be shown together. -/
theorem exists_shownEach_iff {children : List Tree} :
    (∃ entries, ShownEach children entries) ↔
      ∀ child ∈ children, ∃ entry, child.lines = .ok entry := by
  induction children with
  | nil => exact iff_of_true ⟨[], .nil⟩ (by simp)
  | cons child later ih =>
    rw [List.forall_mem_cons, ← ih]
    constructor
    · rintro ⟨entries, hentries⟩
      obtain ⟨entry, entries, hentry, hlater, rfl⟩ := List.forall₂_cons_left_iff.mp hentries
      exact ⟨⟨entry, hentry⟩, entries, hlater⟩
    · rintro ⟨⟨entry, hentry⟩, entries, hlater⟩
      exact ⟨entry :: entries, .cons hentry hlater⟩

/-- A tree can be shown just if its label and its children can. -/
theorem Tree.exists_lines_iff {label : String} {children : List Tree} :
    (∃ lines, (Tree.node label children).lines = .ok lines) ↔
      (∃ shown, shownLines label = .ok shown) ∧
        ∀ child ∈ children, ∃ entry, child.lines = .ok entry := by
  simp only [Tree.lines_eq_ok_iff, ← exists_shownEach_iff]
  constructor
  · rintro ⟨lines, shown, entries, hshown, hentries, -⟩
    exact ⟨⟨shown, hshown⟩, entries, hentries⟩
  · rintro ⟨⟨shown, hshown⟩, entries, hentries⟩
    exact ⟨_, shown, entries, hshown, hentries, rfl⟩

theorem Tree.lines_leaf_iff {label : String} {entry : List String} :
    (Tree.node label []).lines = .ok entry ↔ shownLines label = .ok entry := by
  rw [Tree.lines_eq_ok_iff]
  constructor
  · rintro ⟨shown, entries, hshown, hentries, rfl⟩
    obtain rfl := List.forall₂_nil_left_iff.mp hentries
    rwa [draw, List.append_nil]
  · intro h
    exact ⟨entry, [], h, .nil, (List.append_nil entry).symm⟩

theorem Tree.exists_leaf_iff {label : String} :
    (∃ entry, (Tree.node label []).lines = .ok entry) ↔ CanShow label := by
  simp only [Tree.lines_leaf_iff, exists_shownLines_iff]

end EntityScaffold.Console
