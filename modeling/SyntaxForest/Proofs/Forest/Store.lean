/-
**Segments inside the store.**

A segment is read off the store anew each time, and a segment that runs past the store reads as
empty.  As long as every segment of a shape lies inside the store when its node is made, and the
store only grows, the children of the node stay what they were.

Main definitions:

* `Shape.segments` — the segments of a shape;
* `Segment.Inside`, `Shape.Stored` — a segment that lies inside a store, and a shape all of whose
  segments do.

Main results:

* `Segment.entries_append`, `Shape.children_append` — **what lies inside a store reads the same
  when the store grows**;
* `Segment.entries_kept` — the segment of a sequence just kept reads as that sequence.
-/

import SyntaxForest.Proofs.Forest.Lookup

set_option relaxedAutoImplicit false
set_option autoImplicit false

namespace SyntaxForest

def Shape.segments : Shape → List Segment
  | .document directives => [directives]
  | .overloads _ members => [members]
  | .function _ _ parameters _ => [parameters]
  | .call _ arguments _ => [arguments]
  | .matching _ arms _ => [arms]
  | _ => []

/-- A segment is empty or ends inside a store. -/
def Segment.Inside (store : Array NodeId) (s : Segment) : Prop :=
  s.length = 0 ∨ s.start + s.length ≤ store.size

/-- All segments of a shape lie inside a store. -/
def Shape.Stored (store : Array NodeId) (shape : Shape) : Prop :=
  ∀ s ∈ shape.segments, s.Inside store

instance (store : Array NodeId) (s : Segment) : Decidable (s.Inside store) :=
  inferInstanceAs (Decidable (_ ∨ _))

instance (store : Array NodeId) (shape : Shape) : Decidable (shape.Stored store) :=
  inferInstanceAs (Decidable (∀ s ∈ shape.segments, s.Inside store))

variable {store : Array NodeId} {s : Segment} {shape : Shape}

/-! ### Growing stores -/

theorem size_grown (store : Array NodeId) (ids : List NodeId) :
    (store ++ ids).size = store.size + ids.length := by
  rw [← Array.length_toList, Array.toList_appendList, List.length_append, Array.length_toList]

theorem grown_grown (store : Array NodeId) (ids others : List NodeId) :
    store ++ ids ++ others = store ++ (ids ++ others) := by
  rw [← Array.toList_inj]
  simp only [Array.toList_appendList, List.append_assoc]

theorem Segment.inside_empty (store : Array NodeId) : Segment.empty.Inside store := Or.inl rfl

theorem Segment.inside_kept (store : Array NodeId) (ids : List NodeId) :
    (⟨store.size, ids.length⟩ : Segment).Inside (store ++ ids) :=
  Or.inr (Nat.le_of_eq (size_grown store ids).symm)

theorem Segment.Inside.append (h : s.Inside store) (ids : List NodeId) :
    s.Inside (store ++ ids) := by
  rcases h with h | h
  · exact Or.inl h
  · refine Or.inr ?_
    rw [size_grown]
    omega

theorem Shape.Stored.append (h : shape.Stored store) (ids : List NodeId) :
    shape.Stored (store ++ ids) := fun s hs => (h s hs).append ids

@[simp] theorem Segment.entries_empty (store : Array NodeId) : Segment.empty.entries store = [] :=
  rfl

/-- A segment that has entries lies inside the store. -/
theorem Segment.inside_of_entries_ne_nil (full : s.entries store ≠ []) : s.Inside store := by
  unfold entries at full
  split at full
  · exact absurd rfl full
  · split at full
    · next h => exact Or.inr h
    · exact absurd rfl full

/-- A segment inside a store reads the same when the store grows. -/
theorem Segment.entries_append (h : s.Inside store) (ids : List NodeId) :
    s.entries (store ++ ids) = s.entries store := by
  unfold Segment.entries Segment.isEmpty
  rcases h with h | h
  · simp only [h, decide_true, if_true]
  · have hgrown : s.start + s.length ≤ (store ++ ids).size := by
      rw [size_grown]
      omega
    have htake : ((store ++ ids).extract s.start (s.start + s.length)).toList
        = (store.extract s.start (s.start + s.length)).toList := by
      have hlist : s.start + s.length ≤ store.toList.length := h
      simp only [Array.toList_extract, Array.toList_appendList, List.extract_eq_take_drop,
        ← List.drop_take]
      rw [List.take_append_of_le_length (by omega)]
    rw [if_pos h, if_pos hgrown, htake]

/-- A sequence just kept is read back. -/
theorem Segment.entries_kept (store : Array NodeId) (ids : List NodeId) :
    (⟨store.size, ids.length⟩ : Segment).entries (store ++ ids) = ids := by
  unfold Segment.entries Segment.isEmpty
  cases ids with
  | nil => rfl
  | cons first rest =>
      have hsize : store.size + (first :: rest).length = (store ++ (first :: rest)).size := by
        rw [size_grown]
      rw [if_neg (by simp), if_pos (Nat.le_of_eq hsize), hsize]
      simp only [Array.toList_extract, Array.toList_appendList, List.extract_eq_take_drop,
        size_grown]
      rw [← Array.length_toList, List.drop_left, List.take_of_length_le (by omega)]

/-- A segment has no more entries than its length says. -/
theorem Segment.length_entries_le_length (store : Array NodeId) (s : Segment) :
    (s.entries store).length ≤ s.length := by
  unfold Segment.entries
  split
  · exact Nat.zero_le _
  · split
    · simp only [Array.length_toList, Array.size_extract]
      omega
    · exact Nat.zero_le _

/-- Keeping a sequence answers a segment that reads as the sequence. -/
theorem Forest.storeList_kept {f g : Forest} {ids : List NodeId} {what : String} {s : Segment}
    (h : Forest.storeList ids what f = .ok s g) :
    g = f.keep ids ∧ s.Inside g.lists ∧ s.length ≤ Forest.maxListLength ∧ g.list s = ids := by
  obtain ⟨rfl, ⟨rfl, rfl⟩ | ⟨-, hshort, -, rfl⟩⟩ := Forest.storeList_eq_ok_iff.1 h
  · exact ⟨rfl, Segment.inside_empty _, Nat.zero_le _, rfl⟩
  · exact ⟨rfl, Segment.inside_kept _ _, hshort, Segment.entries_kept _ _⟩

/-- A sequence that is not too long is kept as long as there is room. -/
theorem Forest.exists_storeList (f : Forest) {ids : List NodeId} (what : String)
    (short : ids.length ≤ Forest.maxListLength) (room : ids ≠ [] → f.lists.size < maxWord) :
    ∃ s, Forest.storeList ids what f = .ok s (f.keep ids) := by
  by_cases hids : ids = []
  · exact ⟨_, Forest.storeList_eq_ok_iff.2 ⟨rfl, Or.inl ⟨hids, rfl⟩⟩⟩
  · exact ⟨_, Forest.storeList_eq_ok_iff.2 ⟨rfl, Or.inr ⟨hids, short, room hids, rfl⟩⟩⟩

theorem Shape.children_congr {other : Array NodeId}
    (h : ∀ s ∈ shape.segments, s.entries store = s.entries other) :
    shape.children store = shape.children other := by
  cases shape <;> simp_all [Shape.children, Shape.segments]

/-- **The children of a stored shape stay the same when the store grows.** -/
theorem Shape.children_append (h : shape.Stored store) (ids : List NodeId) :
    shape.children (store ++ ids) = shape.children store :=
  Shape.children_congr fun s hs => Segment.entries_append (h s hs) ids

end SyntaxForest
