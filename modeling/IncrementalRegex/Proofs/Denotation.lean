import IncrementalRegex.Proofs.Proper

namespace IncrementalRegex

namespace Pattern

mutual

/-- The inputs that a pattern denotes. -/
def language : Pattern → Language Char
  | one c => {s | s = [c]}
  | text cs => {s | s = cs}
  | any => {s | ∃ c, s = [c]}
  | satisfying t => {s | ∃ c, passes t c ∧ s = [c]}
  | concat ps => product ps
  | either ps => union ps
  | repeated p b => {s | ∃ k, b.Allows k ∧ s ∈ language p ^ k}
termination_by structural p => p

def product : List Pattern → Language Char
  | [] => 1
  | p :: ps => language p * product ps
termination_by structural ps => ps

def union : List Pattern → Language Char
  | [] => 0
  | p :: ps => language p + union ps
termination_by structural ps => ps

end

mutual

/-- How tests are tagged makes no difference to what is matched. -/
theorem language_matcher : ∀ (p : Pattern) (tag : Nat), (p.matcher tag).1.language = p.language
  | one _, _ | text _, _ | any, _ | satisfying _, _ => rfl
  | concat ps, tag => by
    rw [matcher, Matcher.language_concat, product_matchers ps, language]
  | either ps, tag => by
    ext s
    rw [matcher, Matcher.mem_language_either, ← Matcher.mem_union, union_matchers ps, language]
  | repeated p b, tag => by
    ext s
    rw [matcher, Matcher.mem_language_replicate, language_matcher p]
    rfl

theorem product_matchers : ∀ (ps : List Pattern) (tag : Nat),
    ((matchers tag ps).1.map Matcher.language).prod = product ps
  | [], _ => rfl
  | p :: ps, tag => by
    rw [matchers, List.map_cons, List.prod_cons, language_matcher p, product_matchers ps, product]

theorem union_matchers : ∀ (ps : List Pattern) (tag : Nat),
    Matcher.union (matchers tag ps).1 = union ps
  | [], _ => rfl
  | p :: ps, tag => by
    rw [matchers, Matcher.union, language_matcher p, union_matchers ps, union]

end

theorem mem_language_ofText {cs s : List Char} : s ∈ (ofText cs).language ↔ s = cs := by
  match cs with
  | [] => exact Iff.rfl
  | [c] => exact Iff.rfl
  | c :: c' :: cs => exact Iff.rfl

/-- A character alone is repeated by writing it so often. -/
theorem mem_language_repeated_one {c : Char} {b : Bounds} {s : List Char} :
    s ∈ (repeated (.one c) b).language ↔ ∃ k, b.Allows k ∧ s = List.replicate k c := by
  have hpow (k : Nat) : s ∈ (one c).language ^ k ↔ s = List.replicate k c := by
    rw [Language.mem_pow]
    constructor
    · rintro ⟨ws, rfl, rfl, hws⟩
      rw [List.eq_replicate_iff.mpr ⟨rfl, hws⟩, List.length_replicate,
        List.flatten_replicate_singleton]
    · rintro rfl
      exact ⟨List.replicate k [c], List.flatten_replicate_singleton.symm,
        List.length_replicate, fun _ hw => List.eq_of_mem_replicate hw⟩
  exact exists_congr fun k => and_congr_right fun _ => hpow k

theorem language_join_concat (ps : List Pattern) : (join concat ps).language = product ps := by
  rcases join_cases concat ps with ⟨p, rfl, hp⟩ | hp <;> rw [hp]
  · rw [product, product, mul_one]
  · rw [language]

theorem product_append (ps qs : List Pattern) : product (ps ++ qs) = product ps * product qs := by
  induction ps with
  | nil => rw [List.nil_append, product, one_mul]
  | cons p ps ih => rw [List.cons_append, product, ih, product, mul_assoc]

theorem language_join_either (ps : List Pattern) : (join either ps).language = union ps := by
  rcases join_cases either ps with ⟨p, rfl, hp⟩ | hp <;> rw [hp]
  · rw [union, union, add_zero]
  · rw [language]

theorem union_append (ps qs : List Pattern) : union (ps ++ qs) = union ps + union qs := by
  induction ps with
  | nil => rw [List.nil_append, union, zero_add]
  | cons p ps ih => rw [List.cons_append, union, ih, union, add_assoc]

end Pattern

/-- What a pattern compiles to accepts what the pattern denotes. -/
theorem accepts_iff_of_compile {flags : Flags} {text : String} {tag : Nat} {pattern : Pattern}
    (h : compile flags text tag = .ok (pattern.matcher tag)) (s : List Char) :
    (pattern.matcher tag).1.accepts s ↔ s ∈ pattern.language := by
  rw [Matcher.accepts_iff_of_built (built_of_compile h), Pattern.language_matcher]

end IncrementalRegex
