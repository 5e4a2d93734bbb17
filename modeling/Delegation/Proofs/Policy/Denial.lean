import Delegation.Config.Matchers
import Delegation.Policy.Narrowing
import Delegation.Proofs.Decision.Equality
import Delegation.Proofs.Decision.Permission
import Delegation.Proofs.Pattern.Soundness

namespace Delegation

namespace AccessRule

variable [Matchers] {r s : AccessRule} {request : Request}

/-- Whether a rule's patterns fit a request, whatever its condition. -/
def concerns (r : AccessRule) (request : Request) : Bool :=
  PatternKind.action.describes r.action request.action &&
    PatternKind.resource.describes r.resource request.resource

theorem concerns_of_applies (h : r.applies request = true) : r.concerns request = true := by
  rw [applies, Bool.and_eq_true] at h
  exact h.1

theorem overlaps_of_concerns (hr : r.concerns request = true) (hs : s.concerns request = true) :
    r.overlaps s = true := by
  rw [concerns, Bool.and_eq_true] at hr hs
  rw [overlaps, Bool.and_eq_true]
  exact ⟨Segment.sharing_of_matching hr.1 hs.1, Segment.sharing_of_matching hr.2 hs.2⟩

theorem conditionCovers_holds {c d : Option Condition} {context : Context}
    (h : conditionCovers c d = true) (hd : d.all (·.holds context) = true) :
    c.all (·.holds context) = true := by
  cases c with
  | none => rfl
  | some c =>
    cases d with
    | none => cases h
    | some d =>
      rw [Option.all_some] at hd ⊢
      rw [Condition.holds_congr context c d h, hd]

theorem applies_of_covers (h : r.covers s = true) (hs : s.applies request = true) :
    r.applies request = true := by
  simp only [covers, Bool.and_eq_true] at h
  simp only [applies, Bool.and_eq_true] at hs ⊢
  obtain ⟨⟨haction, hresource⟩, hcondition⟩ := h
  obtain ⟨⟨ha, hr⟩, hc⟩ := hs
  exact ⟨⟨Segment.matching_of_covering haction ha, Segment.matching_of_covering hresource hr⟩,
    conditionCovers_holds hcondition hc⟩

end AccessRule

namespace Document

section

variable [Matchers] {parent child : Document} {options : EvaluateOptions} {request : Request} {deny : AccessRule}

theorem denyExcesses_eq_nil : child.denyExcesses deny = [] ↔
    (∃ r ∈ child.rules .deny, r.covers deny = true) ∨
      ∀ r ∈ child.rules .permit, r.overlaps deny = false := by
  unfold denyExcesses
  split
  · next h => exact ⟨fun _ => .inl (List.any_eq_true.1 h), fun _ => rfl⟩
  · next h =>
    rw [← List.any_eq_true, or_iff_right h, List.map_eq_nil_iff, List.filter_eq_nil_iff]
    exact forall₂_congr fun _ _ => Bool.not_eq_true _ ▸ Iff.rfl

/-- A delegation without an excess over a denial denies what it applies to as well, or no longer has a
permit whose patterns reach it. -/
theorem denial_kept (h : child.denyExcesses deny = []) (ha : deny.applies request = true) :
    (∃ r ∈ child.rules .deny, r.applies request = true) ∨
      ∀ r ∈ child.rules .permit, r.concerns request = false := by
  rcases denyExcesses_eq_nil.1 h with ⟨r, hr, hc⟩ | hno
  · exact .inl ⟨r, hr, AccessRule.applies_of_covers hc ha⟩
  · refine .inr fun r hr => ?_
    rw [← Bool.not_eq_true]
    intro hcon
    have hover := AccessRule.overlaps_of_concerns hcon (AccessRule.concerns_of_applies ha)
    rw [hno r hr] at hover
    cases hover

theorem exists_permit_of_permitted (h : (child.evaluate options request).permitted = true) :
    ∃ r ∈ child.rules .permit, r.applies request = true :=
  exists_permitted_iff.1 (permitted_iff_ranked.1 h).1

theorem no_deny_of_permitted (h : (child.evaluate options request).permitted = true) :
    ∀ r ∈ child.rules .deny, r.applies request = false :=
  (forall_level_iff.1 (permitted_iff_ranked.1 h).2).1

theorem not_applies_of_permitted (hx : child.denyExcesses deny = [])
    (hp : (child.evaluate options request).permitted = true) : deny.applies request = false := by
  rw [← Bool.not_eq_true]
  intro ha
  rcases denial_kept hx ha with ⟨r, hr, hra⟩ | hno
  · rw [no_deny_of_permitted hp r hr] at hra
    cases hra
  · obtain ⟨r, hr, hra⟩ := exists_permit_of_permitted hp
    have hcon := AccessRule.concerns_of_applies hra
    rw [hno r hr] at hcon
    cases hcon

theorem denyExcesses_subset (hr : deny ∈ parent.rules .deny) :
    child.denyExcesses deny ⊆ parent.excesses child := by
  intro e he
  rw [excesses, List.append_assoc]
  exact List.mem_append_left _ (List.mem_flatMap.2 ⟨deny, hr, he⟩)

theorem denyExcesses_eq_nil_of_excesses (hx : parent.excesses child = [])
    (hr : deny ∈ parent.rules .deny) : child.denyExcesses deny = [] :=
  (excesses_eq_nil_iff.1 hx).1 deny hr

theorem parent_of_mem_denyExcesses {e : Excess} (h : e ∈ child.denyExcesses deny) :
    e.parent = .access .deny deny := by
  unfold denyExcesses at h
  split at h
  · cases h
  · obtain ⟨r, -, rfl⟩ := List.mem_map.1 h
    rfl

/-- What a child permits, no denial of its parent applies to, unless the child exceeds a denial. -/
theorem denials_bind_child (parent child : Document) (options : EvaluateOptions) (request : Request)
    (hx : ∀ e ∈ parent.excesses child, ∀ r, e.parent ≠ .access .deny r)
    (hp : (child.evaluate options request).permitted = true) :
    ∀ r ∈ parent.rules .deny, r.applies request = false := by
  intro r hr
  have hnil : child.denyExcesses r = [] := by
    rw [List.eq_nil_iff_forall_not_mem]
    intro e he
    exact hx e (denyExcesses_subset hr he) r (parent_of_mem_denyExcesses he)
  exact not_applies_of_permitted hnil hp

end

def guardedVault : Document where
  statements := [
    .access .deny ⟨"file.*", "/vault/**", some (.comparison "user.level" .less (.number (.ofNat 3))),
      .critical, 1⟩,
    .access .permit ⟨"file.**", "**", none, .high, 2⟩]
  wellFormed := by decide +kernel

def guardedReports : Document where
  statements := [
    .access .permit ⟨"file.read", "/vault/*.txt", none, .high, 1⟩,
    .access .deny ⟨"**", "vault/**", some (.comparison "user.level" .less (.number (.ofNat 3))),
      .high, 2⟩]
  wellFormed := by decide +kernel

def seniorRead : Request where
  action := "file.read"
  resource := "/vault/report.txt"
  context := ⟨[("user", .object [("level", .int 3)])]⟩

theorem denials_bind_guardedReports :
    (∀ e ∈ guardedVault.excesses guardedReports, ∀ r, e.parent ≠ .access .deny r) ∧
      (guardedReports.evaluate {} seniorRead).permitted = true ∧
      ∀ r ∈ guardedVault.rules .deny, r.applies seniorRead = false := by
  have hx : guardedVault.excesses guardedReports = [] := by decide +kernel
  have hp : (guardedReports.evaluate {} seniorRead).permitted = true := by decide +kernel
  have hx' : ∀ e ∈ guardedVault.excesses guardedReports, ∀ r, e.parent ≠ .access .deny r := by
    rw [hx]
    nofun
  exact ⟨hx', hp, denials_bind_child guardedVault guardedReports {} seniorRead hx' hp⟩

end Document

end Delegation
