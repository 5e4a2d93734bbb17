import Delegation.Config.Matchers
import Delegation.Proofs.Covenant.Chain
import Delegation.Proofs.Policy.Obligation

namespace Delegation

namespace Covenant

section

variable [Matchers] {chain : List Covenant} {parent child : Covenant} {k : Nat} {r : AccessRule}

/-- Some obligation of the covenant's document applies wherever a rule does. -/
def Carries (c : Covenant) (r : AccessRule) : Prop :=
  ∃ s ∈ c.document.rules .require, ∀ request, r.applies request = true → s.applies request = true

theorem carries_of_mem (hr : r ∈ parent.document.rules .require) : parent.Carries r :=
  ⟨r, hr, fun _ ha => ha⟩

/-- A link widens an obligation or leaves it as it is, so it still applies wherever the rule does. -/
theorem carries_step (h : defects chain = []) (hp : chain[k]? = some parent)
    (hc : chain[k + 1]? = some child) (hr : parent.Carries r) : child.Carries r := by
  obtain ⟨s, hs, hsr⟩ := hr
  have hx := excesses_of_defects h hp hc
  have hnil := (Document.excesses_eq_nil_iff.1 hx).2.1 s hs
  obtain ⟨t, ht, hcovers⟩ := Document.obligationExcesses_eq_nil.1 hnil
  exact ⟨t, ht, fun request ha => AccessRule.applies_of_covers hcovers (hsr request ha)⟩

/-- Wherever an obligation of a covenant applies, one of each later covenant does. -/
theorem obligations_carried (chain : List Covenant) (h : defects chain = []) (i j : Nat) (hij : i < j)
    (ancestor descendant : Covenant) (hi : chain[i]? = some ancestor)
    (hj : chain[j]? = some descendant) :
    ∀ r ∈ ancestor.document.rules .require, ∃ s ∈ descendant.document.rules .require,
      ∀ request, r.applies request = true → s.applies request = true := by
  intro r hr
  refine handed_down (Carries · r) (Nat.le_of_lt hij) hi hj (carries_of_mem hr) ?_
  intro k c c' _ _ hc hc' hcarries
  exact carries_step h hc hc' hcarries

end

def requiring (action resource : String) (condition : Option Condition) : AccessRule :=
  ⟨action, resource, condition, .high, 1⟩

def isJunior : Condition := .comparison "user.level" .less (.number (.ofNat 3))

def loggedJuniors : Document where
  statements := [.access .require (requiring "audit.log" "/data/**" (some isJunior))]
  wellFormed := by decide +kernel

def auditedJuniors : Document where
  statements := [.access .require (requiring "audit.*" "**" (some isJunior))]
  wellFormed := by decide +kernel

def auditedAlways : Document where
  statements := [.access .require (requiring "**" "**" none)]
  wellFormed := by decide +kernel

theorem obligations_carried_auditedAlways :
    let chain := [granted 1 none loggedJuniors, granted 2 (some 1) auditedJuniors,
      granted 3 (some 2) auditedAlways]
    defects chain = [] ∧ requiring "audit.log" "/data/**" (some isJunior) ∈ loggedJuniors.rules .require ∧
      ∃ s ∈ auditedAlways.rules .require, ∀ request,
        (requiring "audit.log" "/data/**" (some isJunior)).applies request = true →
          s.applies request = true := by
  have hdefects : defects [granted 1 none loggedJuniors, granted 2 (some 1) auditedJuniors,
      granted 3 (some 2) auditedAlways] = [] := by decide +kernel
  have hmem : requiring "audit.log" "/data/**" (some isJunior) ∈ loggedJuniors.rules .require :=
    Document.mem_rules.2 (.head _)
  exact ⟨hdefects, hmem, obligations_carried _ hdefects 0 2 Nat.two_pos _ _ rfl rfl _ hmem⟩

section

variable [Matchers] {chain : List Covenant} {parent child : Covenant} {k : Nat} {now : Instant}

theorem isExpired_of_not_outlives (h : child.outlives parent = false)
    (hp : parent.isExpired now = true) : child.isExpired now = true := by
  unfold isExpired at hp ⊢
  unfold outlives at h
  cases hparent : parent.expiresAt with
  | none =>
    rw [hparent] at hp
    cases hp
  | some limit =>
    cases hchild : child.expiresAt with
    | none =>
      rw [hparent, hchild] at h
      cases h
    | some t =>
      rw [hparent, Option.any_some, decide_eq_true_eq] at hp
      simp only [hparent, hchild, Bool.not_eq_false', decide_eq_true_eq] at h
      rw [Option.any_some, decide_eq_true_eq]
      exact Instant.le_trans h hp

theorem isExpired_step (h : defects chain = []) (hp : chain[k]? = some parent)
    (hc : chain[k + 1]? = some child) (hexpired : parent.isExpired now = true) :
    child.isExpired now = true :=
  isExpired_of_not_outlives (linkDefects_eq_nil.1 (linkDefects_of_chainDefects h hp hc)).2.1 hexpired

/-- Once a covenant has expired, no later covenant permits anything. -/
theorem expiry_binds_descendants (chain : List Covenant) (h : defects chain = []) (i j : Nat)
    (hij : i < j) (ancestor descendant : Covenant) (hi : chain[i]? = some ancestor)
    (hj : chain[j]? = some descendant) (now : Instant) (hexpired : ancestor.isExpired now = true)
    (options : EvaluateOptions) (request : Request) :
    (descendant.evaluate options request now).permitted = false := by
  have hlast : descendant.isExpired now = true := by
    refine handed_down (·.isExpired now = true) (Nat.le_of_lt hij) hi hj hexpired ?_
    intro k c c' _ _ hc hc' hearlier
    exact isExpired_step h hc hc' hearlier
  rw [evaluate, if_pos hlast]

end

def expiring (minute : Int) (c : Covenant) : Covenant := { c with expiresAt := some (atMinute minute) }

/-- At the very instant at which the root expires, a covenant whose document permits the request does not
permit it. -/
theorem expiry_binds_filesOnly :
    let chain := [expiring 30 (granted 1 none filesOnly), expiring 30 (granted 2 (some 1) filesOnly),
      expiring 20 (granted 3 (some 2) filesOnly)]
    defects chain = [] ∧ (expiring 30 (granted 1 none filesOnly)).isExpired (atMinute 30) = true ∧
      (filesOnly.evaluate {} (readOf "file.read")).permitted = true ∧
      ((expiring 20 (granted 3 (some 2) filesOnly)).evaluate {} (readOf "file.read") (atMinute 30)).permitted =
        false := by
  have hdefects : defects [expiring 30 (granted 1 none filesOnly),
      expiring 30 (granted 2 (some 1) filesOnly), expiring 20 (granted 3 (some 2) filesOnly)] = [] := by
    decide +kernel
  have hexpired : (expiring 30 (granted 1 none filesOnly)).isExpired (atMinute 30) = true := by decide
  have hpermitted : (filesOnly.evaluate {} (readOf "file.read")).permitted = true := by decide +kernel
  exact ⟨hdefects, hexpired, hpermitted,
    expiry_binds_descendants _ hdefects 0 2 Nat.two_pos _ _ rfl rfl _ hexpired {} (readOf "file.read")⟩

end Covenant

end Delegation
