import Mathlib

/-! # Labelled trees

Trees whose nodes have a label and any number of children: the labels in the order of the text, the
labels level by level, and the labels with the labels above them.  Both orders list the same
labels (`mem_levelOrder`). -/

namespace Trees

inductive Rose (α : Type) where
  | node (label : α) (children : List (Rose α))

variable {α β : Type}

namespace Rose

def label : Rose α → α
  | node a _ => a

def children : Rose α → List (Rose α)
  | node _ cs => cs

/-! ### Labels -/

mutual
/-- The labels of a tree, each before the labels of its children. -/
def labels : Rose α → List α
  | node a cs => a :: labelsAll cs
def labelsAll : List (Rose α) → List α
  | [] => []
  | c :: cs => labels c ++ labelsAll cs
end

mutual
def map (f : α → β) : Rose α → Rose β
  | node a cs => node (f a) (mapAll f cs)
def mapAll (f : α → β) : List (Rose α) → List (Rose β)
  | [] => []
  | c :: cs => map f c :: mapAll f cs
end

mutual
/-- Every label with the labels above it, the nearest first. -/
def withAncestors (above : List α) : Rose α → Rose (α × List α)
  | node a cs => node (a, above) (withAncestorsAll (a :: above) cs)
def withAncestorsAll (above : List α) : List (Rose α) → List (Rose (α × List α))
  | [] => []
  | c :: cs => withAncestors above c :: withAncestorsAll above cs
end

/-- A queue of trees: take the first, append its children. -/
def walk : ℕ → List (Rose α) → List α
  | 0, _ => []
  | _ + 1, [] => []
  | n + 1, node a cs :: queue => a :: walk n (queue ++ cs)

/-- The labels level by level. -/
def levelOrder (t : Rose α) : List α := walk (labels t).length [t]

/-- Induction on a tree with the induction hypothesis for every child. -/
@[elab_as_elim]
theorem induction {motive : Rose α → Prop}
    (node : ∀ a cs, (∀ c ∈ cs, motive c) → motive (node a cs)) (t : Rose α) : motive t :=
  @Rose.rec α motive (fun cs => ∀ c ∈ cs, motive c) (fun a cs ih => node a cs ih)
    (fun _ h => by cases h) (fun _ _ hc hcs => List.forall_mem_cons.mpr ⟨hc, hcs⟩) t

theorem labels_node (a : α) (cs : List (Rose α)) : labels (node a cs) = a :: labelsAll cs := rfl

theorem labelsAll_cons (c : Rose α) (cs : List (Rose α)) : labelsAll (c :: cs) = labels c ++ labelsAll cs := rfl

theorem mem_labelsAll {x : α} {cs : List (Rose α)} : x ∈ labelsAll cs ↔ ∃ c ∈ cs, x ∈ labels c := by
  induction cs with
  | nil => simp [labelsAll]
  | cons c cs ih => rw [labelsAll_cons, List.mem_append, ih, List.exists_mem_cons_iff]

theorem mem_labels_node {x a : α} {cs : List (Rose α)} :
    x ∈ labels (node a cs) ↔ x = a ∨ ∃ c ∈ cs, x ∈ labels c := by
  rw [labels_node, List.mem_cons, mem_labelsAll]

theorem labelsAll_append (cs ds : List (Rose α)) : labelsAll (cs ++ ds) = labelsAll cs ++ labelsAll ds := by
  induction cs with
  | nil => rfl
  | cons c cs ih => rw [List.cons_append, labelsAll_cons, labelsAll_cons, ih, List.append_assoc]

theorem walk_perm (n : ℕ) (queue : List (Rose α)) (hn : (labelsAll queue).length ≤ n) :
    (walk n queue).Perm (labelsAll queue) := by
  induction n generalizing queue with
  | zero =>
      rw [List.length_eq_zero_iff.mp (by omega : (labelsAll queue).length = 0)]
      exact List.Perm.refl _
  | succ n ih =>
      cases queue with
      | nil => exact List.Perm.refl _
      | cons t queue =>
          cases t with
          | node a cs =>
              have hall : labelsAll (node a cs :: queue) = a :: (labelsAll cs ++ labelsAll queue) := by
                rw [labelsAll_cons, labels_node, List.cons_append]
              rw [hall] at hn ⊢
              unfold walk
              apply List.Perm.cons
              have hrest : (labelsAll (queue ++ cs)).Perm (labelsAll cs ++ labelsAll queue) := by
                rw [labelsAll_append]
                exact List.perm_append_comm
              refine (ih (queue ++ cs) ?_).trans hrest
              rw [hrest.length_eq]
              simp only [List.length_cons] at hn
              omega

theorem levelOrder_perm (t : Rose α) : t.levelOrder.Perm t.labels := by
  have hall : labelsAll [t] = labels t := by simp [labelsAll]
  rw [← hall]
  apply walk_perm
  rw [hall]

theorem mem_levelOrder {x : α} {t : Rose α} : x ∈ t.levelOrder ↔ x ∈ t.labels :=
  t.levelOrder_perm.mem_iff

/-! ### Mapping -/

theorem mapAll_eq (f : α → β) (cs : List (Rose α)) : mapAll f cs = cs.map (map f) := by
  induction cs with
  | nil => rfl
  | cons c cs ih =>
      unfold mapAll
      rw [ih, List.map_cons]

theorem map_node (f : α → β) (a : α) (cs : List (Rose α)) :
    map f (node a cs) = node (f a) (cs.map (map f)) := by
  rw [← mapAll_eq]
  rfl

theorem label_map (f : α → β) (t : Rose α) : (t.map f).label = f t.label := by
  cases t with
  | node a cs => rfl

theorem withAncestorsAll_eq (above : List α) (cs : List (Rose α)) :
    withAncestorsAll above cs = cs.map (withAncestors above) := by
  induction cs with
  | nil => rfl
  | cons c cs ih =>
      unfold withAncestorsAll
      rw [ih, List.map_cons]

theorem withAncestors_node (above : List α) (a : α) (cs : List (Rose α)) :
    withAncestors above (node a cs) = node (a, above) (cs.map (withAncestors (a :: above))) := by
  rw [← withAncestorsAll_eq]
  rfl

mutual
theorem labels_map (f : α → β) (t : Rose α) : (t.map f).labels = t.labels.map f := by
  cases t with
  | node a cs => rw [map, labels, labels, labelsAll_mapAll, List.map_cons]
theorem labelsAll_mapAll (f : α → β) (cs : List (Rose α)) : labelsAll (mapAll f cs) = (labelsAll cs).map f := by
  cases cs with
  | nil => rfl
  | cons c cs => rw [mapAll, labelsAll, labelsAll, labels_map, labelsAll_mapAll, List.map_append]
end

theorem mem_labels_map (f : α → β) (t : Rose α) {x : α} (h : x ∈ t.labels) : f x ∈ (t.map f).labels := by
  rw [labels_map]
  exact List.mem_map_of_mem h

theorem withAncestors_map (f : α → β) (t : Rose α) (above : List α) : (t.map f).withAncestors (above.map f) =
      (t.withAncestors above).map (fun p => (f p.1, p.2.map f)) := by
  induction t using Rose.induction generalizing above with
  | node a cs ih =>
      rw [map_node, withAncestors_node, withAncestors_node, map_node, List.map_map, List.map_map]
      congr 1
      apply List.map_congr_left
      intro c hc
      exact ih c hc (a :: above)

end Rose

end Trees
