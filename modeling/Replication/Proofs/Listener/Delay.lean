import Replication.Proofs.Listener.Task

/-!
# Waits have a length

No operation on numbers that are not negative gives a negative one, so the wait before an attempt
has a length whenever the factor of the policy is not negative.
-/

namespace Replication

namespace Binary64

variable {a b : Binary64}

theorem isNegative_ite {c : Prop} [Decidable c] (ha : a.isNegative = false)
    (hb : b.isNegative = false) : (if c then a else b).isNegative = false := by
  split
  · exact ha
  · exact hb

theorem isNegative_ofQuotient (num den : Nat) : (ofQuotient false num den).isNegative = false :=
  isNegative_ite rfl (isNegative_ite rfl rfl)

theorem isNegative_mul (ha : a.isNegative = false) (hb : b.isNegative = false) :
    (a.mul b).isNegative = false := by
  cases a with
  | notANumber => cases b <;> rfl
  | finite s m e =>
    cases ha
    cases b with
    | notANumber => rfl
    | finite t n f =>
      cases hb
      exact isNegative_ofQuotient _ _
    | infinite t =>
      cases hb
      exact isNegative_ite rfl rfl
  | infinite s =>
    cases ha
    cases b with
    | notANumber => rfl
    | finite t n f =>
      cases hb
      exact isNegative_ite rfl rfl
    | infinite t =>
      cases hb
      rfl

theorem isNegative_powFrom {fuel n : Nat} (ha : a.isNegative = false)
    (hb : b.isNegative = false) : (powFrom fuel a b n).isNegative = false := by
  induction fuel generalizing a b n with
  | zero => exact hb
  | succ fuel ih =>
    have hresult : (if n % 2 = 1 then b.mul a else b).isNegative = false := by
      split
      · exact isNegative_mul hb ha
      · exact hb
    unfold powFrom
    dsimp only
    split
    · exact hresult
    · exact ih (isNegative_mul ha ha) hresult

theorem isNegative_pow (ha : a.isNegative = false) (n : Nat) : (a.pow n).isNegative = false :=
  isNegative_powFrom ha (isNegative_ofQuotient 1 1)

theorem isNegative_addMagnitudes (a b : Binary64) : (a.addMagnitudes b).isNegative = false := by
  cases a <;> cases b <;> first | rfl | exact isNegative_ofQuotient _ _

/-- A finite number that is not negative is a number of parts. -/
theorem exists_toParts? (hf : a.isFinite = true) (ha : a.isNegative = false) (parts : Nat) :
    ∃ n, a.toParts? parts = some n := by
  cases a with
  | finite s m e =>
    cases ha
    exact ⟨_, rfl⟩
  | infinite | notANumber => cases hf

end Binary64

namespace RetryPolicy

variable {p : RetryPolicy}

theorem exists_delay? (h : p.factor.isNegative = false) (attempt : Nat) :
    ∃ delay, p.delay? attempt = some delay := by
  have hseconds : (seconds p.initialDelay).isNegative = false :=
    Binary64.isNegative_addMagnitudes _ _
  have hproduct := Binary64.isNegative_mul hseconds
    (Binary64.isNegative_pow h (min (attempt - 1) 64))
  unfold delay?
  dsimp only
  generalize (seconds p.initialDelay).mul (p.factor.pow (min (attempt - 1) 64)) = product
    at hproduct ⊢
  split
  · exact ⟨_, rfl⟩
  · split
    · exact ⟨_, rfl⟩
    · rename_i hless
      have hfinite : product.isFinite = true := by
        cases hf : product.isFinite with
        | true => rfl
        | false => exact absurd (by rw [hf]; rfl) hless
      obtain ⟨n, hn⟩ := Binary64.exists_toParts? hfinite hproduct Span.perSecond
      exact ⟨_, by rw [hn]; rfl⟩

/-- Without a negative factor a task goes on as long as another attempt is allowed. -/
theorem retries_eq_allows (h : p.factor.isNegative = false) (drops : Nat) :
    p.retries drops = p.allows drops := by
  obtain ⟨delay, hdelay⟩ := exists_delay? h drops
  unfold retries
  rw [hdelay]
  exact Bool.and_true _

end RetryPolicy

end Replication
