import Mathlib.Data.List.Forall2

/-!
# Queues that are rebuilt from a store

A queue is written down element by element and read back in the same order, and an element may get
lost or changed on the way: it goes through a partial map. The elements are of two kinds, and those
of the first kind have to stand at the front of the queue that is rebuilt. The main result says when
the new queue has the elements of the old one in this order.
-/

namespace Lib

variable {α β : Type} {f : α → Option β} {R : α → β → Prop}

/-- Every element arrives, and arrives as it should, exactly when the lists match. -/
theorem forall₂_filterMap_iff {l : List α} :
    List.Forall₂ R l (l.filterMap f) ↔ ∀ a ∈ l, ∃ b, f a = some b ∧ R a b := by
  induction l with
  | nil => simp
  | cons a l ih =>
      rw [List.forall_mem_cons, ← ih]
      cases arrives : f a with
      | none =>
          rw [List.filterMap_cons_none arrives]
          constructor
          · intro matched
            have short := List.length_filterMap_le f l
            have same := matched.length_eq
            rw [List.length_cons] at same
            omega
          · rintro ⟨⟨b, found, -⟩, -⟩
            simp at found
      | some b => simp [List.filterMap_cons_some arrives]

/-- What arrived comes from some element. -/
theorem exists_of_forall₂ {l : List α} {m : List β} (matched : List.Forall₂ R l m) :
    ∀ b ∈ m, ∃ a ∈ l, R a b := by
  induction matched with
  | nil => simp
  | cons related _ ih =>
      rw [List.forall_mem_cons]
      refine ⟨⟨_, List.mem_cons_self, related⟩, fun b member => ?_⟩
      rcases ih b member with ⟨a, source, matches_⟩
      exact ⟨a, List.mem_cons_of_mem _ source, matches_⟩

section Kinds

variable {p : α → Bool} {q : β → Bool}

/-- A list with the elements of the first kind at its front. -/
theorem eq_filter_append {l : List α} (sorted : l.Pairwise fun a b => p b = true → p a = true) :
    l = l.filter p ++ l.filter fun a => !p a := by
  induction l with
  | nil => rfl
  | cons a l ih =>
      rcases List.pairwise_cons.mp sorted with ⟨first, rest⟩
      cases kind : p a with
      | true =>
          rw [List.filter_cons_of_pos kind, List.filter_cons_of_neg (by simp [kind])]
          exact congrArg (a :: ·) (ih rest)
      | false =>
          have none : ∀ b ∈ a :: l, p b = false := by
            rw [List.forall_mem_cons]
            refine ⟨kind, fun b member => ?_⟩
            by_contra other
            have impossible := first b member (by simpa using other)
            simp [kind] at impossible
          rw [List.filter_eq_nil_iff.mpr fun b member => by simp [none b member],
            List.filter_eq_self.mpr fun b member => by simp [none b member]]
          rfl

variable (kept : ∀ a b, f a = some b → q b = p a)

include kept in
theorem filter_filterMap_eq (l : List α) : (l.filterMap f).filter q = (l.filter p).filterMap f := by
  induction l with
  | nil => rfl
  | cons a l ih =>
      cases arrives : f a with
      | none =>
          rw [List.filterMap_cons_none arrives, ih]
          cases kind : p a with
          | true => rw [List.filter_cons_of_pos kind, List.filterMap_cons_none arrives]
          | false => rw [List.filter_cons_of_neg (by simp [kind])]
      | some b =>
          have same := kept a b arrives
          rw [List.filterMap_cons_some arrives]
          cases kind : p a with
          | true =>
              rw [List.filter_cons_of_pos kind, List.filterMap_cons_some arrives,
                List.filter_cons_of_pos (same.trans kind), ih]
          | false =>
              rw [List.filter_cons_of_neg (by simp [same, kind]),
                List.filter_cons_of_neg (by simp [kind]), ih]

include kept in
theorem map_filterMap_eq {l : List α} (all : ∀ a ∈ l, ∃ b, f a = some b) :
    (l.filterMap f).map q = l.map p := by
  induction l with
  | nil => rfl
  | cons a l ih =>
      rcases List.forall_mem_cons.mp all with ⟨⟨b, arrives⟩, rest⟩
      rw [List.filterMap_cons_some arrives, List.map_cons, List.map_cons, kept a b arrives, ih rest]

/-- A list of two parts, of which only the first has elements of the first kind. -/
theorem filter_append_of_kinds {first second : List β} (front : ∀ b ∈ first, q b = true)
    (back : ∀ b ∈ second, q b = false) :
    (first ++ second).filter q = first ∧ (first ++ second).filter (fun b => !q b) = second ∧
      (first ++ second).Pairwise fun a b => q b = true → q a = true := by
  refine ⟨?_, ?_, ?_⟩
  · rw [List.filter_append, List.filter_eq_self.mpr front,
      List.filter_eq_nil_iff.mpr fun b member => by simp [back b member], List.append_nil]
  · rw [List.filter_append, List.filter_eq_nil_iff.mpr fun b member => by simp [front b member],
      List.filter_eq_self.mpr fun b member => by simp [back b member], List.nil_append]
  · refine List.pairwise_append.mpr ⟨?_, ?_, fun a source b _ _ => front a source⟩
    · exact List.pairwise_of_forall_mem_list fun a source b _ _ => front a source
    · refine List.pairwise_of_forall_mem_list fun a _ b target set => ?_
      rw [back b target] at set
      cases set

include kept in
/-- The queue that is rebuilt has all elements, those of the first kind in front, exactly when they
all arrive as they should and already stood in this order. -/
theorem rebuild_iff (kinds : ∀ a b, R a b → q b = p a) (l : List α) :
    (∃ first second, l.filterMap f = first ++ second ∧ List.Forall₂ R (l.filter p) first ∧
        List.Forall₂ R (l.filter fun a => !p a) second) ↔
      (l.Pairwise fun a b => p b = true → p a = true) ∧ ∀ a ∈ l, ∃ b, f a = some b ∧ R a b := by
  have opposite : ∀ a b, f a = some b → (!q b) = !p a := fun a b arrives => by
    rw [kept a b arrives]
  constructor
  · rintro ⟨first, second, whole, front, back⟩
    have kindFirst : ∀ b ∈ first, q b = true := by
      intro b member
      rcases exists_of_forall₂ front b member with ⟨a, source, related⟩
      rw [kinds a b related]
      exact (List.mem_filter.mp source).2
    have kindSecond : ∀ b ∈ second, q b = false := by
      intro b member
      rcases exists_of_forall₂ back b member with ⟨a, source, related⟩
      rw [kinds a b related]
      simpa using (List.mem_filter.mp source).2
    rcases filter_append_of_kinds kindFirst kindSecond with ⟨splitFirst, splitSecond, sorted⟩
    rw [← whole] at splitFirst splitSecond sorted
    rw [filter_filterMap_eq kept] at splitFirst
    rw [@filter_filterMap_eq _ _ _ _ (fun b => !q b) opposite] at splitSecond
    rw [← splitFirst] at front
    rw [← splitSecond] at back
    have all : ∀ a ∈ l, ∃ b, f a = some b ∧ R a b := by
      intro a member
      cases kind : p a with
      | true => exact forall₂_filterMap_iff.mp front a (List.mem_filter.mpr ⟨member, kind⟩)
      | false =>
          exact forall₂_filterMap_iff.mp back a (List.mem_filter.mpr ⟨member, by simp [kind]⟩)
    refine ⟨?_, all⟩
    have arrive : ∀ a ∈ l, ∃ b, f a = some b :=
      fun a member => (all a member).imp fun _ => And.left
    have marks : (l.map p).Pairwise fun a b => b = true → a = true := by
      rw [← map_filterMap_eq kept arrive]
      exact List.pairwise_map.mpr sorted
    exact List.pairwise_map.mp marks
  · rintro ⟨sorted, all⟩
    refine ⟨(l.filter p).filterMap f, (l.filter fun a => !p a).filterMap f, ?_, ?_, ?_⟩
    · rw [← List.filterMap_append, ← eq_filter_append sorted]
    · exact forall₂_filterMap_iff.mpr fun a member => all a (List.mem_of_mem_filter member)
    · exact forall₂_filterMap_iff.mpr fun a member => all a (List.mem_of_mem_filter member)

end Kinds

end Lib
