import FabricEpoch.Lib.Forest

/-!
# Ledgers of delegated certificates

An authority hands out certificates and takes them back. A certificate may be
derived from one that was handed out before, and taking one back takes back what is
derived from it. What stands at the end can be read off the deeds alone.

- `issued`, `Revoked`: the certificates of a ledger, and those taken back;
- `Lawful`: nothing is handed out twice, or below what was taken back;
- `Lawful.revoked_issue`, `revoked_revoke`: what one deed adds;
- `Revoked.append`: what was taken back stays so.
-/

namespace Delegations

open Forest Worklist

/-- A certificate: its key, the key it is derived from, and what it says. -/
structure Certificate (κ τ : Type) where
  key : κ
  parent : Option κ
  terms : τ
deriving DecidableEq

/-- What the authority does. -/
inductive Deed (κ τ : Type)
  | issue (certificate : Certificate κ τ)
  | revoke (key : κ)

variable {κ τ : Type}

/-- The certificates that were handed out, in order. -/
def issued : List (Deed κ τ) → List (Certificate κ τ)
  | [] => []
  | .issue c :: ds => c :: issued ds
  | .revoke _ :: ds => issued ds

theorem issued_append (ds es : List (Deed κ τ)) : issued (ds ++ es) = issued ds ++ issued es := by
  induction ds with
  | nil => rfl
  | cons d ds ih =>
    cases d with
    | issue c => exact congrArg (c :: ·) ih
    | revoke k => exact ih

/-- The keys that were handed out. -/
def keys (ds : List (Deed κ τ)) : List κ := (issued ds).map Certificate.key

theorem keys_append (ds es : List (Deed κ τ)) : keys (ds ++ es) = keys ds ++ keys es := by
  unfold keys
  rw [issued_append, List.map_append]

variable [DecidableEq κ]

/-- The second certificate is derived from the first. -/
abbrev Derives (ds : List (Deed κ τ)) : κ → κ → Prop :=
  Derived Certificate.key Certificate.parent (issued ds)

/-- The certificate was taken back, or it is derived from one that was. -/
def Revoked (ds : List (Deed κ τ)) (k : κ) : Prop :=
  ∃ j, Deed.revoke j ∈ ds ∧ (j = k ∨ Derives ds j k)

/-- No key is handed out twice, nothing is derived from what is unknown or taken
back, and only what stands is taken back. -/
inductive Lawful : List (Deed κ τ) → Prop
  | nil : Lawful []
  | issue {ds : List (Deed κ τ)} {c : Certificate κ τ} (before : Lawful ds) (fresh : c.key ∉ keys ds)
      (parent : ∀ p, c.parent = some p → p ∈ keys ds ∧ ¬ Revoked ds p) : Lawful (ds ++ [.issue c])
  | revoke {ds : List (Deed κ τ)} {k : κ} (before : Lawful ds) (known : k ∈ keys ds)
      (live : ¬ Revoked ds k) : Lawful (ds ++ [.revoke k])

variable {ds es : List (Deed κ τ)} {c : Certificate κ τ} {j k r : κ}

/-- **What was taken back stays so.** -/
theorem Revoked.append (h : Revoked ds k) (es : List (Deed κ τ)) : Revoked (ds ++ es) k := by
  obtain ⟨j, hj, hk⟩ := h
  refine ⟨j, List.mem_append_left es hj, hk.imp_right fun hderived => ?_⟩
  show Derived _ _ (issued (ds ++ es)) j k
  rw [issued_append]
  exact Derived.append hderived (issued es)

/-- And with it what is derived from it. -/
theorem Revoked.derived (h : Revoked ds j) (hk : Derives ds j k) : Revoked ds k := by
  obtain ⟨i, hi, rfl | hderived⟩ := h
  · exact ⟨i, hi, .inr hk⟩
  · exact ⟨i, hi, .inr (hderived.trans hk)⟩

/-- **What a revocation adds**: the certificate, and what is derived from it. -/
theorem revoked_revoke : Revoked (ds ++ [.revoke r]) k ↔ Revoked ds k ∨ r = k ∨ Derives ds r k := by
  have hissued : issued (ds ++ [.revoke r]) = issued ds := by
    rw [issued_append]
    exact List.append_nil _
  unfold Revoked Derives
  rw [hissued]
  constructor
  · rintro ⟨j, hj, hk⟩
    rcases List.mem_append.mp hj with hold | hnew
    · exact .inl ⟨j, hold, hk⟩
    · cases List.mem_singleton.mp hnew
      exact .inr hk
  · rintro (⟨j, hj, hk⟩ | hk)
    · exact ⟨j, List.mem_append_left _ hj, hk⟩
    · exact ⟨r, List.mem_append_right _ (List.mem_singleton_self _), hk⟩

namespace Lawful

/-- The certificates form a forest under distinct keys. -/
theorem forest (h : Lawful ds) : (keys ds).Nodup ∧
    Grown Certificate.key Certificate.parent (fun _ _ => True) (issued ds) := by
  induction h with
  | nil => exact ⟨List.nodup_nil, Grown.nil⟩
  | @issue ds c before fresh parent ih =>
    constructor
    · rw [keys_append]
      refine List.nodup_append.mpr ⟨ih.1, List.nodup_singleton _, ?_⟩
      intro a ha b hb hab
      have hkey : b = c.key := List.mem_singleton.mp hb
      exact fresh (hkey ▸ hab ▸ ha)
    · rw [issued_append]
      refine ih.2.append fun p hp => ?_
      obtain ⟨q, hq, hkey⟩ := List.mem_map.mp (parent p hp).1
      exact ⟨q, hq, hkey, trivial⟩
  | @revoke ds k before known live ih =>
    rw [keys_append, issued_append]
    show (keys ds ++ []).Nodup ∧ Grown _ _ _ (issued ds ++ [])
    rw [List.append_nil, List.append_nil]
    exact ih

/-- **What a certificate adds** is not taken back, nor does it change what is. -/
theorem revoked_issue (h : Lawful ds) (hfresh : c.key ∉ keys ds)
    (hparent : ∀ p, c.parent = some p → p ∈ keys ds ∧ ¬ Revoked ds p) :
    Revoked (ds ++ [.issue c]) k ↔ Revoked ds k := by
  constructor
  · rintro ⟨j, hj, hk⟩
    have hold : Deed.revoke j ∈ ds := by
      rcases List.mem_append.mp hj with hold | hnew
      · exact hold
      · cases List.mem_singleton.mp hnew
    rcases hk with rfl | hderived
    · exact ⟨j, hold, .inl rfl⟩
    · replace hderived : Derived _ _ (issued (ds ++ [.issue c])) j k := hderived
      rw [issued_append] at hderived
      rcases (h.forest.2.derived_append hfresh fun p hp => (hparent p hp).1).mp hderived with
        hbefore | ⟨rfl, p, hp, hj⟩
      · exact ⟨j, hold, .inr hbefore⟩
      · -- its parent was not taken back
        exact absurd ⟨j, hold, hj⟩ (hparent p hp).2
  · exact fun hrevoked => hrevoked.append _

/-- Only what was handed out is taken back. -/
theorem known (h : Lawful ds) (hk : Revoked ds k) : k ∈ keys ds := by
  obtain ⟨j, hj, rfl | hderived⟩ := hk
  · induction h with
    | nil => cases hj
    | issue before fresh parent ih =>
      rw [keys_append]
      rcases List.mem_append.mp hj with hold | hnew
      · exact List.mem_append_left _ (ih hold)
      · cases List.mem_singleton.mp hnew
    | revoke before known live ih =>
      rw [keys_append]
      rcases List.mem_append.mp hj with hold | hnew
      · exact List.mem_append_left _ (ih hold)
      · cases List.mem_singleton.mp hnew
        exact List.mem_append_left _ known
  · exact hderived.mem

end Lawful

end Delegations
