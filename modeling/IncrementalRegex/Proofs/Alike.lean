import IncrementalRegex.Proofs.Proper

namespace IncrementalRegex

open MatchState

namespace Matcher

variable {α τ : Type} [DecidableEq α] [DecidableEq τ] [ItemTest τ α]

/-- From their starts the matchers answer yes for the same inputs. -/
def Alike (m m' : Matcher α τ) : Prop := ∀ a : Aspect, m.start.words a = m'.start.words a

theorem Alike.refl (m : Matcher α τ) : Alike m m := fun _ => rfl

theorem Alike.state_eq {m m' : Matcher α τ} (h : Alike m m') : m.start.state = m'.start.state :=
  state_feed_eq_of_words h []

theorem states_eq_of_words {m m' : Matcher α τ} (h : ∀ a, m.words a = m'.words a) (s : List α) :
    m.states s = m'.states s := by
  induction s generalizing m m' with
  | nil => rfl
  | cons x s ih =>
    have hread (a : Aspect) : (m.read x).words a = (m'.read x).words a := by
      ext t
      rw [← cons_mem_words, ← cons_mem_words, h a]
    have hstate : (m.read x).state = (m'.read x).state := state_feed_eq_of_words h [x]
    have hlater : (m.read x).states s = (m'.read x).states s := ih hread
    simp only [states, trace, List.map_cons, hstate] at hlater ⊢
    rw [hlater]

/-- They report the same states, at the start and for every input. -/
theorem Alike.states_eq {m m' : Matcher α τ} (h : Alike m m') (s : List α) :
    m.start.states s = m'.start.states s := states_eq_of_words h s

theorem following_congr {es es' : List (Matcher α τ)} (h : List.Forall₂ Alike es es') (a : Aspect) :
    following a es = following a es' := by
  induction h with
  | nil => rfl
  | cons he _ ih => rw [following, following, he .live, he .complete, ih]

theorem following_idle (es : List (Matcher α τ)) (a : Aspect) :
    following a (es.map idle) = following a es := by
  induction es with
  | nil => rfl
  | cons e es ih => rw [List.map_cons, following, following, start_idle, ih]

theorem exists_mem_congr {P : Matcher α τ → Prop} {bs bs' : List (Matcher α τ)}
    (hP : ∀ m m', Alike m m' → (P m ↔ P m')) (h : List.Forall₂ Alike bs bs') :
    (∃ b ∈ bs, P b) ↔ ∃ b ∈ bs', P b := by
  induction h with
  | nil => simp
  | cons hb _ ih =>
    simp only [List.mem_cons, exists_eq_or_imp]
    rw [hP _ _ hb, ih]

theorem alike_concat {es es' : List (Matcher α τ)} (h : List.Forall₂ Alike es es')
    (hne : ∀ e ∈ es, e.start.state ≠ .mismatch) : Alike (concat es) (concat es') := by
  have hne' : ∀ e ∈ es', e.start.state ≠ .mismatch := by
    have hstate (m m' : Matcher α τ) (hm : Alike m m') :
        m.start.state = .mismatch ↔ m'.start.state = .mismatch := by rw [hm.state_eq]
    intro e' he' hm
    obtain ⟨e, he, hm⟩ := (exists_mem_congr hstate h).mpr ⟨e', he', hm⟩
    exact hne e he hm
  intro a
  cases h with
  | nil => rfl
  | cons he hes =>
    rw [words_concat hne (.inr (by simp)), words_concat hne' (.inr (by simp)), following_idle,
      following_idle]
    exact following_congr (.cons he hes) a

theorem alike_either {bs bs' : List (Matcher α τ)} (h : List.Forall₂ Alike bs bs') :
    Alike (either bs) (either bs') := by
  intro a
  ext w
  rw [mem_words_either, mem_words_either]
  exact exists_mem_congr (fun m m' hmm => by rw [hmm a]) h

theorem alike_replicate {t t' : Matcher α τ} {b : Bounds} (h : Alike t t')
    (ht : t.start.state ≠ .mismatch) (hb : b.lower < unbounded) :
    Alike (replicate t b) (replicate t' b) := by
  intro a
  rw [words_replicate ht hb, words_replicate (h.state_eq ▸ ht) hb]
  have hidle (a : Aspect) : t.idle.start.words a = t'.idle.start.words a := by
    rw [start_idle, start_idle, h a]
  cases a <;> simp only [further, hidle] <;> rfl

end Matcher

namespace Pattern

open Matcher

theorem forall₂_matchers {R : Matcher Char CharTest → Matcher Char CharTest → Prop}
    {ps : List Pattern} (h : ∀ p ∈ ps, ∀ tag tag', R (p.matcher tag).1 (p.matcher tag').1)
    (tag tag' : Nat) : List.Forall₂ R (matchers tag ps).1 (matchers tag' ps).1 := by
  induction ps generalizing tag tag' with
  | nil => exact .nil
  | cons p ps ih =>
    obtain ⟨hp, hps⟩ := List.forall_mem_cons.mp h
    exact .cons (hp tag tag') (ih hps _ _)

/-- Tags only tell tests apart; the states do not depend on them. -/
theorem alike_matcher {p : Pattern} (h : p.Proper) (tag tag' : Nat) :
    Alike (p.matcher tag).1 (p.matcher tag').1 := by
  induction h generalizing tag tag' with
  | @leaf p h =>
    cases p with
    | one | text | any => exact .refl _
    | satisfying t =>
      intro a
      ext s
      obtain ⟨hc, hl⟩ := mem_words_satisfying tag t s
      obtain ⟨hc', hl'⟩ := mem_words_satisfying tag' t s
      cases a
      · exact hc.trans hc'.symm
      · exact hl.trans hl'.symm
    | concat | either | repeated => exact h.elim
  | concat parts ih =>
    refine alike_concat (forall₂_matchers ih tag tag') fun m hm => ?_
    obtain ⟨p, hp, tag', rfl⟩ := mem_matchers hm
    exact (words_of_built (built_matcher (parts p hp) tag')).1
  | either _ _ ih => exact alike_either (forall₂_matchers ih tag tag')
  | repeated h part ih =>
    exact alike_replicate (ih tag tag') (words_of_built (built_matcher part tag)).1 h

theorem exists_mem_matchers {bs : List Pattern} (h : ∀ b ∈ bs, b.Proper) (tag : Nat) {a : Aspect}
    {w : List Char} : (∃ m ∈ (matchers tag bs).1, w ∈ m.start.words a) ↔
      ∃ b ∈ bs, w ∈ (b.matcher 0).1.start.words a := by
  induction bs generalizing tag with
  | nil => simp [matchers]
  | cons b bs ih =>
    obtain ⟨hb, hbs⟩ := List.forall_mem_cons.mp h
    simp only [matchers, List.mem_cons, exists_eq_or_imp]
    rw [ih hbs, alike_matcher hb tag 0 a]

theorem mem_words_join_either {bs : List Pattern} (h : ∀ b ∈ bs, b.Proper) (tag : Nat) {a : Aspect}
    {w : List Char} : w ∈ ((join either bs).matcher tag).1.start.words a ↔
      ∃ b ∈ bs, w ∈ (b.matcher 0).1.start.words a := by
  rcases join_cases either bs with ⟨b, rfl, hb⟩ | hb <;> rw [hb]
  · simp [alike_matcher (h b List.mem_cons_self) tag 0 a]
  · rw [matcher, mem_words_either]
    exact exists_mem_matchers h tag

theorem proper_of_join_either {bs : List Pattern} (h : (join either bs).Proper) :
    ∀ b ∈ bs, b.Proper := by
  rcases join_cases either bs with ⟨b, rfl, hb⟩ | hb <;> rw [hb] at h
  · simpa using h
  · cases h with
    | leaf h => exact h.elim
    | either _ parts => exact parts

/-- A choice among some branches or others is a choice between the two choices. -/
theorem alike_join_append {bs bs' : List Pattern} (h : (join either bs).Proper)
    (h' : (join either bs').Proper) (tag tag₁ tag₂ : Nat) :
    Alike ((join either (bs ++ bs')).matcher tag).1
      (.either [((join either bs).matcher tag₁).1, ((join either bs').matcher tag₂).1]) := by
  have hbs := proper_of_join_either h
  have hbs' := proper_of_join_either h'
  intro a
  ext w
  rw [mem_words_join_either (List.forall_mem_append.mpr ⟨hbs, hbs'⟩), mem_words_either]
  simp only [List.mem_append, List.mem_cons, List.not_mem_nil, or_false, exists_eq_left,
    mem_words_join_either hbs, mem_words_join_either hbs', or_and_right, exists_or]

end Pattern
end IncrementalRegex
