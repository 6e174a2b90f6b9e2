import IncrementalRegex.Matcher.Basic

namespace IncrementalRegex.Matcher

variable {α τ : Type} [DecidableEq α] [DecidableEq τ]

mutual

def same : Matcher α τ → Matcher α τ → Bool
  | leaf s l, leaf s' l' => s = s' && l = l'
  | sequence s es live, sequence s' es' live' =>
    s = s' && sameNumbered live live' && sameAll es es'
  | choice s bs live, choice s' bs' live' => s = s' && sameAll live live' && sameAll bs bs'
  | repetition s t b n live, repetition s' t' b' n' live' =>
    s = s' && b = b' && n = n' && sameNumbered live live' && same t t'
  | _, _ => false

def sameAll : List (Matcher α τ) → List (Matcher α τ) → Bool
  | [], [] => true
  | m :: ms, m' :: ms' => same m m' && sameAll ms ms'
  | _, _ => false

def sameNumbered : List (Matcher α τ × Nat) → List (Matcher α τ × Nat) → Bool
  | [], [] => true
  | (m, n) :: ms, (m', n') :: ms' => n = n' && same m m' && sameNumbered ms ms'
  | _, _ => false

end

mutual

theorem same_iff : ∀ a b : Matcher α τ, same a b ↔ a = b
  | leaf .., b => by cases b <;> simp [same]
  | sequence _ es live, b => by
    cases b <;> simp [same, sameAll_iff es, sameNumbered_iff live]
    grind
  | choice _ bs live, b => by
    cases b <;> simp [same, sameAll_iff bs, sameAll_iff live]
    grind
  | repetition _ t _ _ live, b => by
    cases b <;> simp [same, same_iff t, sameNumbered_iff live]
    grind

theorem sameAll_iff : ∀ as bs : List (Matcher α τ), sameAll as bs ↔ as = bs
  | [], bs => by cases bs <;> simp [sameAll]
  | a :: as, bs => by cases bs <;> simp [sameAll, same_iff a, sameAll_iff as]

theorem sameNumbered_iff : ∀ as bs : List (Matcher α τ × Nat), sameNumbered as bs ↔ as = bs
  | [], bs => by cases bs <;> simp [sameNumbered]
  | (a, n) :: as, bs => by
    cases bs <;> simp [sameNumbered, same_iff a, sameNumbered_iff as, Prod.ext_iff, and_comm]

end

instance : DecidableEq (Matcher α τ) := fun a b => decidable_of_iff _ (same_iff a b)

end IncrementalRegex.Matcher
