import Delegation.Config.Matchers
import Delegation.Covenant.Chain
import Delegation.Proofs.Policy.Denial

namespace Delegation

namespace Covenant

section

variable [Matchers] {chain : List Covenant} {parent child : Covenant} {depth i j k : Nat}

theorem linkDefects_eq_nil : linkDefects depth parent child = [] ↔
    child.parentId = some parent.id ∧ child.outlives parent = false ∧
      parent.document.excesses child.document = [] := by
  simp only [linkDefects, List.append_eq_nil_iff, List.map_eq_nil_iff, ite_eq_left_iff,
    ite_eq_right_iff, List.cons_ne_nil, imp_false, Decidable.not_not, Bool.not_eq_true, and_assoc]

theorem linkDefects_of_chainDefects (h : chainDefects depth chain = [])
    (hp : chain[k]? = some parent) (hc : chain[k + 1]? = some child) :
    linkDefects (depth + k + 1) parent child = [] := by
  induction chain generalizing depth k with
  | nil => cases hp
  | cons c chain ih =>
    cases chain with
    | nil => cases hc
    | cons c' rest =>
      rw [chainDefects, List.append_eq_nil_iff] at h
      cases k with
      | zero =>
        cases hp
        cases hc
        exact h.1
      | succ k =>
        have hlink := ih h.2 hp hc
        rwa [Nat.add_right_comm depth 1 k] at hlink

theorem excesses_of_defects (h : defects chain = []) (hp : chain[k]? = some parent)
    (hc : chain[k + 1]? = some child) : parent.document.excesses child.document = [] :=
  (linkDefects_eq_nil.1 (linkDefects_of_chainDefects h hp hc)).2.2

/-- What every covenant hands on to the next, a covenant and all that come after it have. -/
theorem handed_down (P : Covenant → Prop) (hij : i ≤ j) (hi : chain[i]? = some parent)
    (hj : chain[j]? = some child) (hP : P parent)
    (hstep : ∀ k c c', i ≤ k → k < j → chain[k]? = some c → chain[k + 1]? = some c' → P c → P c') :
    P child := by
  induction hij generalizing child with
  | refl =>
    rw [hi] at hj
    cases hj
    exact hP
  | @step j hij ih =>
    have hlt : j < chain.length := by
      have hlen := (List.getElem?_eq_some_iff.1 hj).1
      omega
    have hlast : chain[j]? = some chain[j] := List.getElem?_eq_getElem hlt
    have hPlast := ih hlast fun k c c' hk hk' => hstep k c c' hk (Nat.lt_succ_of_lt hk')
    exact hstep j _ child hij (Nat.lt_succ_self j) hlast hj hPlast

/-- Whether a denial of the covenant's document applies to a request. -/
def Denies (c : Covenant) (request : Request) : Prop :=
  ∃ r ∈ c.document.rules .deny, r.applies request = true

/-- Whether the covenant's document has a permit whose patterns fit a request. -/
def Reaches (c : Covenant) (request : Request) : Prop :=
  ∃ r ∈ c.document.rules .permit, r.concerns request = true

variable {options : EvaluateOptions} {request : Request}

theorem denies_step (h : defects chain = []) (hp : chain[k]? = some parent)
    (hc : chain[k + 1]? = some child) (hd : parent.Denies request)
    (hkeep : child.Reaches request ∨ child.Denies request) : child.Denies request := by
  rcases hkeep with ⟨s, hs, hcon⟩ | hkeep
  · obtain ⟨r, hr, ha⟩ := hd
    have hx := Document.denyExcesses_eq_nil_of_excesses (excesses_of_defects h hp hc) hr
    rcases Document.denial_kept hx ha with hdeny | hno
    · exact hdeny
    · rw [hno s hs] at hcon
      cases hcon
  · exact hkeep

theorem not_denies_of_permitted (h : defects chain = []) (hp : chain[k]? = some parent)
    (hc : chain[k + 1]? = some child) (hpermit : (child.document.evaluate options request).permitted) :
    ¬ parent.Denies request := by
  rintro ⟨r, hr, ha⟩
  have hx := Document.denyExcesses_eq_nil_of_excesses (excesses_of_defects h hp hc) hr
  rw [Document.not_applies_of_permitted hx hpermit] at ha
  cases ha

/-- A denial lasts over a run of covenants that each repeat it or still reach what it applies to. -/
theorem denies_run (h : defects chain = []) (hi : chain[i]? = some parent)
    (hd : parent.Denies request) (n : Nat) (hn : chain[i + n]? = some child)
    (hkeep : ∀ k c, i < k → k ≤ i + n → chain[k]? = some c →
      c.Reaches request ∨ c.Denies request) : child.Denies request := by
  refine handed_down (Denies · request) (Nat.le_add_right i n) hi hn hd ?_
  intro k c c' hk hk' hc hc' hdenies
  exact denies_step h hc hc' hdenies (hkeep (k + 1) c' (by omega) (by omega) hc')

/-- Over more than one link a denial binds if every covenant between repeats it for the request or still
has a permit whose patterns fit the request. -/
theorem denials_bind_descendants (chain : List Covenant) (h : defects chain = []) (i j : Nat)
    (hij : i + 2 ≤ j) (ancestor descendant : Covenant) (hi : chain[i]? = some ancestor)
    (hj : chain[j]? = some descendant) (options : EvaluateOptions) (request : Request)
    (hkeep : ∀ k c, i < k → k < j → chain[k]? = some c → c.Reaches request ∨ c.Denies request)
    (hp : (descendant.document.evaluate options request).permitted = true) :
    ∀ r ∈ ancestor.document.rules .deny, r.applies request = false := by
  intro r hr
  rw [← Bool.not_eq_true]
  intro ha
  obtain ⟨n, rfl⟩ : ∃ n, j = i + n + 1 := ⟨j - i - 1, by omega⟩
  have hlt : i + n < chain.length := by
    have hlen := (List.getElem?_eq_some_iff.1 hj).1
    omega
  have hlast : chain[i + n]? = some chain[i + n] := List.getElem?_eq_getElem hlt
  have hdenies := denies_run h hi ⟨r, hr, ha⟩ n hlast fun k c hk hk' =>
    hkeep k c hk (by omega)
  exact not_denies_of_permitted h hlast hj hp hdenies

def numbered (n : Fin 16) : Identifier := ⟨List.replicate 31 ⟨0, n.pos⟩ ++ [n], by simp⟩

def atMinute (minute : Int) : Instant := .mk minute 0 0

def granted (id : Fin 16) (parent : Option (Fin 16)) (document : Document) : Covenant where
  id := numbered id
  issuer := "operator"
  beneficiary := "agent"
  parentId := parent.map numbered
  issuedAt := atMinute 0
  expiresAt := none
  constraints := document.canonical
  document := document

end

def permitting (action resource : String) : AccessRule := ⟨action, resource, none, .high, 1⟩

def guardedSecrets : Document where
  statements := [.access .permit (permitting "file.*" "*"), .access .deny (permitting "secret.*" "*")]
  wellFormed := by decide +kernel

def filesOnly : Document where
  statements := [.access .permit (permitting "file.read" "*")]
  wellFormed := by decide +kernel

def secretsAgain : Document where
  statements := [.access .permit (permitting "secret.read" "*")]
  wellFormed := by decide +kernel

def readOf (action : String) : Request := ⟨action, "/vault", ⟨[]⟩⟩

/-- The middle covenant says nothing of secrets, so the last may permit what the first denies. -/
theorem not_denials_bind_descendants : ¬ ∀ (chain : List Covenant), defects chain = [] →
    ∀ (i j : Nat), i + 2 ≤ j → ∀ (ancestor descendant : Covenant), chain[i]? = some ancestor →
    chain[j]? = some descendant → ∀ (options : EvaluateOptions) (request : Request),
    (descendant.document.evaluate options request).permitted = true →
    ∀ r ∈ ancestor.document.rules .deny, r.applies request = false := by
  intro h
  have hdefects : defects [granted 1 none guardedSecrets, granted 2 (some 1) filesOnly,
      granted 3 (some 2) secretsAgain] = [] := by decide +kernel
  have hpermitted : (secretsAgain.evaluate {} (readOf "secret.read")).permitted = true := by
    decide +kernel
  have happlies : (permitting "secret.*" "*").applies (readOf "secret.read") = true := by
    decide +kernel
  have hno := h _ hdefects 0 2 (Nat.le_refl 2) _ _ rfl rfl {} (readOf "secret.read") hpermitted
    (permitting "secret.*" "*") (Document.mem_rules.2 (.tail _ (.head _)))
  rw [happlies] at hno
  cases hno

theorem denials_bind_fileReader :
    let chain := [granted 1 none guardedSecrets, granted 2 (some 1) filesOnly,
      granted 3 (some 2) filesOnly]
    defects chain = [] ∧ (filesOnly.evaluate {} (readOf "file.read")).permitted = true ∧
      (granted 2 (some 1) filesOnly).Reaches (readOf "file.read") ∧
      ∀ r ∈ guardedSecrets.rules .deny, r.applies (readOf "file.read") = false := by
  have hdefects : defects [granted 1 none guardedSecrets, granted 2 (some 1) filesOnly,
      granted 3 (some 2) filesOnly] = [] := by decide +kernel
  have hpermitted : (filesOnly.evaluate {} (readOf "file.read")).permitted = true := by
    decide +kernel
  have hreaches : (granted 2 (some 1) filesOnly).Reaches (readOf "file.read") :=
    ⟨permitting "file.read" "*", Document.mem_rules.2 (.head _), by decide +kernel⟩
  refine ⟨hdefects, hpermitted, hreaches, ?_⟩
  apply denials_bind_descendants _ hdefects 0 2 (Nat.le_refl 2) _ _ rfl rfl {} _ ?_ hpermitted
  intro k c hk hk' hc
  obtain rfl : k = 1 := by omega
  cases hc
  exact .inl hreaches

end Covenant

end Delegation
