import RobotMotion.Storage.FileTree
import Mathlib.Data.List.Basic

/-!
# What is saved is found

A path leads through directories only, and a file is never put in the place of a directory.
So putting a file leaves the way to it as it was (`FileTree.walk_put`), and a file that was
saved is found at its path (`FileTree.find_of_save`).
-/

namespace RobotMotion.FileTree

variable {t t' : FileTree} {place : List String} {path contents : String}

theorem node?_put_self (hplace : place ≠ []) (node : Node) :
    (t.put place node).node? place = some node := by
  cases place with
  | nil => exact absurd rfl hplace
  | cons part rest => exact List.lookup_cons_self

theorem lookup_filter_ne {place other : List String} (h : other ≠ place)
    (nodes : List (List String × Node)) :
    (nodes.filter (·.1 != place)).lookup other = nodes.lookup other := by
  induction nodes with
  | nil => rfl
  | cons entry nodes ih =>
    obtain ⟨where', node⟩ := entry
    by_cases hplace : where' = place
    · subst hplace
      have hother : (other == where') = false := beq_eq_false_iff_ne.mpr h
      rw [List.filter_cons_of_neg (by simp), ih, List.lookup_cons, hother]
    · rw [List.filter_cons_of_pos (by simpa using hplace), List.lookup_cons, List.lookup_cons, ih]

theorem node?_put_of_ne {other : List String} (h : other ≠ place) (node : Node) :
    (t.put place node).node? other = t.node? other := by
  cases other with
  | nil => rfl
  | cons part rest =>
    have hother : (part :: rest == place) = false := beq_eq_false_iff_ne.mpr h
    show List.lookup (part :: rest) ((place, node) :: t.nodes.filter (·.1 != place)) = _
    rw [List.lookup_cons, hother]
    exact lookup_filter_ne h t.nodes

/-- **A way through directories is not changed by what is put elsewhere.** -/
theorem walk_put (hplace : t.node? place ≠ some .directory) (node : Node) {parts : List String}
    {here there : List String} (h : t.walk here parts = some there) :
    (t.put place node).walk here parts = some there := by
  induction parts generalizing here with
  | nil => exact h
  | cons part rest ih =>
    rw [walk] at h ⊢
    by_cases hdirectory : t.node? here = some .directory
    · have hne : here ≠ place := by
        rintro rfl
        exact hplace hdirectory
      rw [if_pos hdirectory] at h
      rw [node?_put_of_ne hne, if_pos hdirectory]
      split at h
      · rename_i hstay
        rw [if_pos hstay]
        exact ih h
      · rename_i hstay
        rw [if_neg hstay]
        split at h
        · rename_i hback
          rw [if_pos hback]
          exact ih h
        · rename_i hback
          rw [if_neg hback]
          split at h
          · rename_i hname
            rw [if_pos hname]
            exact ih h
          · cases h
    · rw [if_neg hdirectory] at h
      cases h

/-- What writing a file comes to: the path leads to a place that is no directory, and the file
is put there. -/
theorem write?_eq_some (h : t.write? path contents = some t') :
    isPath path = true ∧ path ≠ "" ∧ ∃ place, t.walk [] (parts path) = some place ∧
      t.node? place ≠ some .directory ∧ t' = t.put place (.file contents) := by
  rw [write?] at h
  obtain ⟨_, hpath, h⟩ := Option.bind_eq_some_iff.mp h
  refine ⟨?_, ?_, ?_⟩
  · cases hvalid : isPath path with
    | true => rfl
    | false =>
      rw [hvalid] at hpath
      cases hpath
  · rintro rfl
    cases h
  · split at h
    case h_1 | h_2 | h_3 | h_4 => cases h
    case h_5 =>
      obtain ⟨place, hwalk, h⟩ := Option.bind_eq_some_iff.mp h
      refine ⟨place, hwalk, ?_⟩
      split at h
      · cases h
      · rename_i hdirectory
        exact ⟨hdirectory, (Option.some.inj h).symm⟩

/-- **A file that was written is found at its path.** -/
theorem find_of_write? (h : t.write? path contents = some t') :
    t'.find path = .file contents := by
  obtain ⟨hpath, hsome, place, hwalk, hplace, rfl⟩ := write?_eq_some h
  have hroot : place ≠ [] := by
    rintro rfl
    exact hplace rfl
  have hnode := node?_put_self (t := t) hroot (.file contents)
  simp only [find, findFrom, hsome, hpath, ite_self, walk_put hplace _ hwalk, Option.bind_some,
    hnode, decide_false, Bool.not_true, Bool.or_false, Bool.false_eq_true, if_false]

/-- **A file that was saved is found at its path.** -/
theorem find_of_save (h : t.save path contents = (t', none)) : t'.find path = .file contents := by
  rw [save] at h
  split at h
  · cases h
  · split at h
    · rename_i hwrite
      obtain rfl := (Prod.mk.inj h).1
      exact find_of_write? hwrite
    · cases h

end RobotMotion.FileTree
