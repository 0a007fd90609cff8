/-
**Entries that share a label.**

Some entries of a list have a label, and several may have the same one.  The first of several that
share a label leads them.  If a stand-in takes the place of each leader and the entries that
follow it are left out, no label is left twice.

Main definitions:

* `Sharing.sharing` — the entries with the label of an entry;
* `Sharing.shared`, `Sharing.leads`, `Sharing.leaders` — the entries that share their label, and
  the first of them;
* `Sharing.gathered` — the list with a stand-in for each leader.

Main results:

* `Sharing.exists_leader` — whoever shares a label is led;
* `Sharing.eq_of_leads` — a label has one leader;
* `Sharing.leaders_eq_nil_iff_nodup` — nobody leads exactly where no label is listed twice;
* `Sharing.nodup_gathered`, `Sharing.nodup_labels` — **with the stand-ins no entry and no label is
  listed twice.**
-/

import Mathlib.Data.List.Nodup

set_option relaxedAutoImplicit false
set_option autoImplicit false

namespace SyntaxForest

namespace Sharing

variable {α κ : Type} [DecidableEq κ]

/-- The entries of a list with the label of an entry, in order. -/
def sharing (label : α → Option κ) (listed : List α) (x : α) : List α :=
  listed.filter fun y => label y = label x

/-- An entry has a label, and it is not the only one with that label. -/
def shared (label : α → Option κ) (listed : List α) (x : α) : Bool :=
  (label x).isSome && decide (2 ≤ (sharing label listed x).length)

variable {label : α → Option κ} {listed : List α} {x y : α}

/-! ### Who shares -/

theorem mem_sharing : y ∈ sharing label listed x ↔ y ∈ listed ∧ label y = label x := by
  simp [sharing]

theorem sharing_congr (h : label y = label x) :
    sharing label listed y = sharing label listed x := by
  rw [sharing, sharing, h]

theorem shared_congr (h : label y = label x) : shared label listed y = shared label listed x := by
  rw [shared, shared, sharing_congr h, h]

theorem shared_iff :
    shared label listed x = true
      ↔ label x ≠ none ∧ ∃ first second rest, sharing label listed x = first :: second :: rest := by
  rw [shared, Bool.and_eq_true, Option.isSome_iff_ne_none, decide_eq_true_iff]
  refine and_congr_right fun _ => ?_
  rcases sharing label listed x with _ | ⟨first, _ | ⟨second, rest⟩⟩ <;> simp

/-- Two entries with the same label share it. -/
theorem shared_of_ne (hx : x ∈ listed) (hy : y ∈ listed) (hne : x ≠ y) (hlabel : label x ≠ none)
    (h : label y = label x) : shared label listed x = true := by
  have hmx : x ∈ sharing label listed x := mem_sharing.2 ⟨hx, rfl⟩
  have hmy : y ∈ sharing label listed x := mem_sharing.2 ⟨hy, h⟩
  refine shared_iff.2 ⟨hlabel, ?_⟩
  rcases hs : sharing label listed x with _ | ⟨first, _ | ⟨second, rest⟩⟩
  · rw [hs] at hmx
    cases hmx
  · rw [hs] at hmx hmy
    exact absurd ((List.mem_singleton.1 hmx).trans (List.mem_singleton.1 hmy).symm) hne
  · exact ⟨first, second, rest, rfl⟩

/-- No label of an entry that does not share it is listed twice. -/
theorem nodup_unshared (nodup : listed.Nodup) :
    (listed.filterMap fun x => if shared label listed x then none else label x).Nodup := by
  refine List.pairwise_filterMap.2 (nodup.imp_of_mem fun {x y} hx hy hne a ha b hb => ?_)
  split at ha
  · cases ha
  · next hunshared =>
      split at hb
      · cases hb
      · intro hab
        have hlabel : label x ≠ none := by
          rw [ha]
          exact Option.some_ne_none a
        refine hunshared (shared_of_ne hx hy hne hlabel ?_)
        rw [ha, hb, hab]

/-! ### Who leads -/

variable [DecidableEq α]

/-- An entry is the first of several with its label. -/
def leads (label : α → Option κ) (listed : List α) (x : α) : Bool :=
  shared label listed x && decide ((sharing label listed x).head? = some x)

/-- The first entries of those that share a label, in order. -/
def leaders (label : α → Option κ) (listed : List α) : List α :=
  listed.filter (leads label listed)

theorem leads_iff : leads label listed x = true
    ↔ label x ≠ none ∧ ∃ second rest, sharing label listed x = x :: second :: rest := by
  rw [leads, Bool.and_eq_true, shared_iff, decide_eq_true_iff]
  constructor
  · rintro ⟨⟨hlabel, first, second, rest, hsharing⟩, hhead⟩
    rw [hsharing, List.head?_cons] at hhead
    cases hhead
    exact ⟨hlabel, second, rest, hsharing⟩
  · rintro ⟨hlabel, second, rest, hsharing⟩
    refine ⟨⟨hlabel, x, second, rest, hsharing⟩, ?_⟩
    rw [hsharing, List.head?_cons]

theorem shared_of_leads (h : leads label listed x = true) : shared label listed x = true := by
  rw [leads, Bool.and_eq_true] at h
  exact h.1

/-- Whoever shares a label is led. -/
theorem exists_leader (h : shared label listed x = true) :
    ∃ leader ∈ leaders label listed, label leader = label x := by
  obtain ⟨hlabel, first, second, rest, hsharing⟩ := shared_iff.1 h
  obtain ⟨hlisted, hfirst⟩ := mem_sharing.1 (hsharing ▸ List.mem_cons_self : first ∈ _)
  refine ⟨first, List.mem_filter.2 ⟨hlisted, leads_iff.2 ⟨?_, second, rest, ?_⟩⟩, hfirst⟩
  · rw [hfirst]
    exact hlabel
  · rw [sharing_congr hfirst, hsharing]

/-- A label has one leader. -/
theorem eq_of_leads (hx : leads label listed x = true) (hy : leads label listed y = true)
    (h : label y = label x) : y = x := by
  obtain ⟨-, second, rest, hsharing⟩ := leads_iff.1 hx
  obtain ⟨-, second', rest', hsharing'⟩ := leads_iff.1 hy
  rw [sharing_congr h, hsharing] at hsharing'
  exact (List.cons.inj hsharing').1.symm

theorem leaders_eq_nil_iff :
    leaders label listed = [] ↔ ∀ x ∈ listed, shared label listed x = false := by
  constructor
  · intro h x hx
    refine Bool.eq_false_iff.2 fun hs => ?_
    obtain ⟨leader, hleader, -⟩ := exists_leader hs
    rw [h] at hleader
    cases hleader
  · intro h
    refine List.filter_eq_nil_iff.2 fun x hx hl => ?_
    have hs := h x hx
    rw [shared_of_leads hl] at hs
    cases hs

/-- Nobody leads exactly where no label is listed twice. -/
theorem leaders_eq_nil_iff_nodup (nodup : listed.Nodup) :
    leaders label listed = [] ↔ (listed.filterMap label).Nodup := by
  constructor
  · intro h
    have hunshared := leaders_eq_nil_iff.1 h
    have hlabels : ∀ x ∈ listed, (if shared label listed x then none else label x) = label x := by
      intro x hx
      rw [hunshared x hx]
      rfl
    rw [← List.filterMap_congr hlabels]
    exact nodup_unshared nodup
  · intro h
    refine leaders_eq_nil_iff.2 fun x _ => Bool.eq_false_iff.2 fun hs => ?_
    obtain ⟨hlabel, first, second, rest, hsharing⟩ := shared_iff.1 hs
    obtain ⟨key, hkey⟩ := Option.ne_none_iff_exists'.1 hlabel
    have hfirst : label first = some key := by
      rw [← hkey]
      exact (mem_sharing.1 (hsharing ▸ List.mem_cons_self : first ∈ _)).2
    have hsecond : label second = some key := by
      rw [← hkey]
      exact (mem_sharing.1 (hsharing ▸ List.mem_cons_of_mem _ List.mem_cons_self : second ∈ _)).2
    -- two that share a label would bring it twice
    have hsub : ((sharing label listed x).filterMap label).Nodup :=
      h.sublist (List.filter_sublist.filterMap label)
    rw [hsharing, List.filterMap_cons_some hfirst, List.filterMap_cons_some hsecond] at hsub
    exact (List.nodup_cons.1 hsub).1 List.mem_cons_self

/-! ### Stand-ins -/

/-- What an entry is replaced by, if it is not left out. -/
def replaced (label : α → Option κ) (listed : List α) (standIn : α → α) (x : α) : Option α :=
  if leads label listed x then some (standIn x)
  else if shared label listed x then none
  else some x

/-- The list with a stand-in for each leader, and without the entries that follow it. -/
def gathered (label : α → Option κ) (listed : List α) (standIn : α → α) : List α :=
  listed.filterMap (replaced label listed standIn)

variable {standIn : α → α}

/-- Without leaders nothing is replaced. -/
theorem gathered_of_leaders_eq_nil (h : leaders label listed = []) :
    gathered label listed standIn = listed := by
  have hunshared := leaders_eq_nil_iff.1 h
  have hsame : ∀ x ∈ listed, replaced label listed standIn x = some x := by
    intro x hx
    have hleads : leads label listed x = false := by
      rw [leads, hunshared x hx, Bool.false_and]
    rw [replaced, hleads, hunshared x hx]
    rfl
  rw [gathered, List.filterMap_congr hsame, List.filterMap_some]

theorem length_gathered_le : (gathered label listed standIn).length ≤ listed.length :=
  List.length_filterMap_le _ _

/-- An entry stays, or it stands in for a leader. -/
theorem mem_gathered : y ∈ gathered label listed standIn
    ↔ (y ∈ listed ∧ shared label listed y = false)
      ∨ ∃ leader ∈ leaders label listed, y = standIn leader := by
  rw [gathered, List.mem_filterMap]
  constructor
  · rintro ⟨x, hx, hreplaced⟩
    unfold replaced at hreplaced
    split at hreplaced
    · next hleads =>
        exact Or.inr ⟨x, List.mem_filter.2 ⟨hx, hleads⟩, (Option.some.inj hreplaced).symm⟩
    · split at hreplaced
      · cases hreplaced
      · next hunshared =>
          cases hreplaced
          exact Or.inl ⟨hx, Bool.eq_false_iff.2 hunshared⟩
  · rintro (⟨hy, hunshared⟩ | ⟨leader, hleader, rfl⟩)
    · refine ⟨y, hy, ?_⟩
      have hleads : leads label listed y = false := by
        rw [leads, hunshared, Bool.false_and]
      rw [replaced, hleads, hunshared]
      rfl
    · obtain ⟨hlisted, hleads⟩ := List.mem_filter.1 hleader
      exact ⟨leader, hlisted, if_pos hleads⟩

/-- **With the stand-ins no entry is listed twice,** if they are new and each has its leader. -/
theorem nodup_gathered (nodup : listed.Nodup)
    (new : ∀ leader ∈ leaders label listed, standIn leader ∉ listed)
    (injective : ∀ x ∈ leaders label listed, ∀ y ∈ leaders label listed,
      standIn x = standIn y → x = y) :
    (gathered label listed standIn).Nodup := by
  refine List.pairwise_filterMap.2 (nodup.imp_of_mem fun {x y} hx hy hne a ha b hb => ?_)
  rintro rfl
  unfold replaced at ha hb
  split at ha
  · next hleads =>
      have hxl : x ∈ leaders label listed := List.mem_filter.2 ⟨hx, hleads⟩
      split at hb
      · next hleads' =>
          have hyl : y ∈ leaders label listed := List.mem_filter.2 ⟨hy, hleads'⟩
          exact hne (injective x hxl y hyl ((Option.some.inj ha).trans (Option.some.inj hb).symm))
      · split at hb
        · cases hb
        · have hsame : standIn x = y := (Option.some.inj ha).trans (Option.some.inj hb).symm
          exact new x hxl (hsame ▸ hy)
  · split at ha
    · cases ha
    · split at hb
      · next hleads' =>
          have hyl : y ∈ leaders label listed := List.mem_filter.2 ⟨hy, hleads'⟩
          have hsame : standIn y = x := (Option.some.inj hb).trans (Option.some.inj ha).symm
          exact new y hyl (hsame ▸ hx)
      · split at hb
        · cases hb
        · exact hne ((Option.some.inj ha).trans (Option.some.inj hb).symm)

/-- **With the stand-ins no label is listed twice,** if they have none and the others keep
theirs. -/
theorem nodup_labels {relabel : α → Option κ} (nodup : listed.Nodup)
    (kept : ∀ x ∈ listed, relabel x = label x)
    (unlabelled : ∀ leader ∈ leaders label listed, relabel (standIn leader) = none) :
    ((gathered label listed standIn).filterMap relabel).Nodup := by
  rw [gathered, List.filterMap_filterMap]
  have hlabels : ∀ x ∈ listed, (replaced label listed standIn x).bind relabel
      = if shared label listed x then none else label x := by
    intro x hx
    unfold replaced
    split
    · next hleads =>
        rw [Option.bind_some, if_pos (shared_of_leads hleads)]
        exact unlabelled x (List.mem_filter.2 ⟨hx, hleads⟩)
    · split
      · rfl
      · exact kept x hx
  rw [List.filterMap_congr hlabels]
  exact nodup_unshared nodup

end Sharing

end SyntaxForest
