import Mathlib.Data.List.Nodup
import Mathlib.Logic.Function.Basic

/-! A registry.

    Keys are enrolled one after the other and keep the numbers they get, from 1 on. Every key has a
    record, which is the default one until the key is a member and somebody amends it. `number` and
    `member` undo each other, so what a registry holds can be asked for by number or by key.

        1 ↦ k₁    2 ↦ k₂    3 ↦ k₃    ⋯        record k₁    record k₂    record k₃    ⋯ -/

@[ext] structure Registry (κ α : Type*) [Inhabited α] where
  members : List κ
  record : κ → α
  nodup : members.Nodup
  outside : ∀ k, k ∉ members → record k = default

namespace Registry
variable {κ α : Type*} [Inhabited α]

def empty : Registry κ α := ⟨[], fun _ => default, List.nodup_nil, fun _ _ => rfl⟩

/-- The member of a number. -/
def member (g : Registry κ α) : ℕ → Option κ
  | 0 => none
  | v + 1 => g.members[v]?

theorem member_mem {g : Registry κ α} {v : ℕ} {k : κ} (h : g.member v = some k) : k ∈ g.members := by
  cases v with
  | zero => cases h
  | succ v => exact List.mem_of_getElem? h

theorem member_le {g : Registry κ α} {v : ℕ} {k : κ} (h : g.member v = some k) : v ≤ g.members.length := by
  cases v with
  | zero => cases h
  | succ v => exact (List.getElem?_eq_some_iff.mp h).1

/-- A member has one number. -/
theorem member_inj {g : Registry κ α} {v w : ℕ} {k : κ} (hv : g.member v = some k) (hw : g.member w = some k) :
    v = w := by
  cases v with
  | zero => cases hv
  | succ v =>
    cases w with
    | zero => cases hw
    | succ w =>
      obtain ⟨hlt, -⟩ := List.getElem?_eq_some_iff.mp hv
      exact congrArg (· + 1) ((List.getElem?_inj hlt g.nodup).mp (hv.trans hw.symm))

variable [DecidableEq κ]

/-- The number of a key. -/
def number (g : Registry κ α) (k : κ) : Option ℕ :=
  if k ∈ g.members then some (g.members.idxOf k + 1) else none

theorem number_eq_some {g : Registry κ α} {k : κ} {v : ℕ} : g.number k = some v ↔ g.member v = some k := by
  have hself : k ∈ g.members → g.member (g.members.idxOf k + 1) = some k := fun hk => by
    rw [member, List.getElem?_eq_some_iff]
    exact ⟨List.idxOf_lt_length_iff.mpr hk, List.getElem_idxOf _⟩
  rw [number]
  split
  · rename_i hk
    constructor
    · rintro ⟨⟩
      exact hself hk
    · exact fun h => congrArg some (member_inj (hself hk) h)
  · rename_i hk
    exact ⟨nofun, fun h => absurd (member_mem h) hk⟩

theorem number_eq_none {g : Registry κ α} {k : κ} : g.number k = none ↔ k ∉ g.members := by
  rw [number]
  split <;> simp_all

theorem exists_number {g : Registry κ α} {k : κ} (hk : k ∈ g.members) : ∃ v, g.number k = some v := ⟨_, if_pos hk⟩

/-- A key is enrolled once. -/
def enroll (g : Registry κ α) (k : κ) : Registry κ α :=
  if h : k ∈ g.members then g
  else
    { members := g.members ++ [k]
      record := g.record
      nodup := List.nodup_append.mpr ⟨g.nodup, List.nodup_singleton k, fun _ hx _ hy hxy =>
        h (List.mem_singleton.mp hy ▸ hxy ▸ hx)⟩
      outside := fun x hx => g.outside x fun hmem => hx (List.mem_append_left _ hmem) }

/-- The record of a member changes. -/
def amend (g : Registry κ α) (k : κ) (f : α → α) : Registry κ α :=
  if h : k ∈ g.members then
    { g with
      record := Function.update g.record k (f (g.record k))
      outside := fun x hx => by
        have hne : x ≠ k := fun heq => hx (heq ▸ h)
        rw [Function.update_of_ne hne]
        exact g.outside x hx }
  else g

section
variable {g : Registry κ α} {k : κ}

theorem enroll_mem (hk : k ∈ g.members) : g.enroll k = g := dif_pos hk

@[simp] theorem record_enroll (g : Registry κ α) (k : κ) : (g.enroll k).record = g.record := by
  rw [enroll]
  split <;> rfl

theorem members_enroll (hk : k ∉ g.members) : (g.enroll k).members = g.members ++ [k] := by
  rw [enroll, dif_neg hk]

theorem member_enroll (hk : k ∉ g.members) (v : ℕ) :
    (g.enroll k).member v = if v = g.members.length + 1 then some k else g.member v := by
  cases v with
  | zero => rfl
  | succ v =>
    rw [member, members_enroll hk, member]
    rcases Nat.lt_trichotomy v g.members.length with hlt | rfl | hgt
    · rw [List.getElem?_append_left hlt, if_neg (by omega)]
    · rw [List.getElem?_concat_length, if_pos rfl]
    · rw [List.getElem?_eq_none (by simp; omega), if_neg (by omega), List.getElem?_eq_none (by omega)]

/-- Who is enrolled last gets the next number. -/
theorem number_enroll (hk : k ∉ g.members) : (g.enroll k).number k = some (g.members.length + 1) := by
  rw [number_eq_some, member_enroll hk, if_pos rfl]

@[simp] theorem members_amend (g : Registry κ α) (k : κ) (f : α → α) : (g.amend k f).members = g.members := by
  rw [amend]
  split <;> rfl

@[simp] theorem member_amend (g : Registry κ α) (k : κ) (f : α → α) (v : ℕ) :
    (g.amend k f).member v = g.member v := by
  cases v with
  | zero => rfl
  | succ v => rw [member, members_amend, member]

@[simp] theorem number_amend (g : Registry κ α) (k : κ) (f : α → α) (j : κ) : (g.amend k f).number j = g.number j := by
  rw [number, number, members_amend]

theorem record_amend (hk : k ∈ g.members) (f : α → α) : (g.amend k f).record k = f (g.record k) := by
  rw [amend, dif_pos hk]
  exact Function.update_self _ _ _

theorem record_amend_of_ne {j : κ} (hj : j ≠ k) (f : α → α) : (g.amend k f).record j = g.record j := by
  rw [amend]
  split
  · exact Function.update_of_ne hj _ _
  · rfl

theorem amend_of_not_mem (hk : k ∉ g.members) (f : α → α) : g.amend k f = g := dif_neg hk

/-- Two amendments in a row are one. -/
theorem amend_amend (g : Registry κ α) (k : κ) (f f' : α → α) :
    (g.amend k f).amend k f' = g.amend k fun r => f' (f r) := by
  by_cases hk : k ∈ g.members
  · ext1
    · simp only [members_amend]
    · funext j
      rcases eq_or_ne j k with rfl | hne
      · rw [record_amend (by rwa [members_amend]), record_amend hk, record_amend hk]
      · rw [record_amend_of_ne hne, record_amend_of_ne hne, record_amend_of_ne hne]
  · rw [amend_of_not_mem hk, amend_of_not_mem hk, amend_of_not_mem hk]

/-- Amendments of two keys can come in either order. -/
theorem amend_comm {j : κ} (hne : j ≠ k) (g : Registry κ α) (f f' : α → α) :
    (g.amend k f).amend j f' = (g.amend j f').amend k f := by
  ext1
  · simp only [members_amend]
  · funext i
    rcases eq_or_ne i k with rfl | hk
    · rw [record_amend_of_ne hne.symm]
      by_cases hmem : i ∈ g.members
      · rw [record_amend hmem, record_amend (by rwa [members_amend]), record_amend_of_ne hne.symm]
      · rw [amend_of_not_mem hmem, amend_of_not_mem (by rwa [members_amend]), record_amend_of_ne hne.symm]
    · rw [record_amend_of_ne hk]
      rcases eq_or_ne i j with rfl | hj
      · by_cases hmem : i ∈ g.members
        · rw [record_amend hmem, record_amend (by rwa [members_amend]), record_amend_of_ne hk]
        · rw [amend_of_not_mem hmem, amend_of_not_mem (by rwa [members_amend]), record_amend_of_ne hk]
      · rw [record_amend_of_ne hj, record_amend_of_ne hj, record_amend_of_ne hk]

/-- A key is enrolled before or after another one is amended. -/
theorem enroll_amend {j : κ} (hne : j ≠ k) (g : Registry κ α) (f : α → α) :
    (g.amend j f).enroll k = (g.enroll k).amend j f := by
  by_cases hk : k ∈ g.members
  · rw [enroll_mem hk, enroll_mem (by rwa [members_amend])]
  have hk' : k ∉ (g.amend j f).members := by rwa [members_amend]
  ext1
  · rw [members_enroll hk', members_amend, members_amend, members_enroll hk]
  · rw [record_enroll]
    funext i
    by_cases hmem : j ∈ g.members
    · have hmem' : j ∈ (g.enroll k).members := by
        rw [members_enroll hk]
        exact List.mem_append_left _ hmem
      rcases eq_or_ne i j with rfl | hij
      · rw [record_amend hmem, record_amend hmem', record_enroll]
      · rw [record_amend_of_ne hij, record_amend_of_ne hij, record_enroll]
    · have hmem' : j ∉ (g.enroll k).members := by
        rw [members_enroll hk]
        simp [hmem, hne]
      rw [amend_of_not_mem hmem, amend_of_not_mem hmem', record_enroll]

/-! ### Registries that differ in one key -/

/-- `g'` comes from `g` by what concerns `k` only. -/
structure Near (k : κ) (g g' : Registry κ α) : Prop where
  kept : ∀ v j, g.member v = some j → g'.member v = some j
  others : ∀ v j, j ≠ k → g'.member v = some j → g.member v = some j
  record : ∀ j, j ≠ k → g'.record j = g.record j

omit [DecidableEq κ] in
theorem near_refl (k : κ) (g : Registry κ α) : Near k g g := ⟨fun _ _ h => h, fun _ _ _ h => h, fun _ _ => rfl⟩

theorem Near.amend {g' : Registry κ α} (h : Near k g g') (f : α → α) : Near k g (g'.amend k f) :=
  ⟨fun v j hv => by rw [member_amend]; exact h.kept v j hv,
    fun v j hj hv => h.others v j hj (by rwa [member_amend] at hv),
    fun j hj => (record_amend_of_ne hj f).trans (h.record j hj)⟩

theorem near_enroll (k : κ) (g : Registry κ α) : Near k g (g.enroll k) := by
  by_cases hk : k ∈ g.members
  · rw [enroll_mem hk]
    exact near_refl k g
  · refine ⟨fun v j hv => ?_, fun v j hj hv => ?_, fun j _ => by rw [record_enroll]⟩
    · rw [member_enroll hk, if_neg (fun heq => ?_)]
      · exact hv
      · have := member_le hv
        omega
    · rw [member_enroll hk] at hv
      split at hv
      · exact absurd (Option.some.inj hv).symm hj
      · exact hv

theorem Near.number_eq {g' : Registry κ α} {j : κ} (h : Near k g g') (hne : j ≠ k) : g'.number j = g.number j := by
  refine Option.ext fun v => ?_
  rw [number_eq_some, number_eq_some]
  exact ⟨h.others v j hne, h.kept v j⟩

theorem Near.mem_iff {g' : Registry κ α} {j : κ} (h : Near k g g') (hne : j ≠ k) :
    j ∈ g.members ↔ j ∈ g'.members := by
  rw [← not_iff_not, ← number_eq_none, ← number_eq_none, h.number_eq hne]

/-- The same amendment of another key keeps them near. -/
theorem Near.amend_other {g' : Registry κ α} {j : κ} (h : Near k g g') (hne : j ≠ k) (f : α → α) :
    Near k (g.amend j f) (g'.amend j f) := by
  refine ⟨fun v i hv => ?_, fun v i hi hv => ?_, fun i hi => ?_⟩
  · rw [member_amend] at hv ⊢
    exact h.kept v i hv
  · rw [member_amend] at hv ⊢
    exact h.others v i hi hv
  · have hmem : j ∈ g.members ↔ j ∈ g'.members := h.mem_iff hne
    rcases eq_or_ne i j with rfl | hij
    · by_cases hi' : i ∈ g.members
      · rw [record_amend hi', record_amend (hmem.mp hi'), h.record i hi]
      · rw [amend_of_not_mem hi', amend_of_not_mem (mt hmem.mpr hi'), h.record i hi]
    · rw [record_amend_of_ne hij, record_amend_of_ne hij, h.record i hi]

omit [DecidableEq κ] in
/-- What a number other than that of `k` stands for. -/
theorem Near.member_eq {g' : Registry κ α} (h : Near k g g') {v : ℕ} (hv : g'.member v ≠ some k) :
    g'.member v = g.member v := by
  cases hm : g'.member v with
  | some j => exact (h.others v j (fun heq => hv (heq ▸ hm)) hm).symm
  | none =>
    cases hm' : g.member v with
    | none => rfl
    | some j => cases hm.symm.trans (h.kept v j hm')

end

end Registry
