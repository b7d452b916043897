import Mathlib.Logic.Basic
import Mathlib.Data.List.Basic

/-!
Consumers of a byte stream that are called again whenever bytes arrive. A call
works on the state and its buffer and ends with a status; some statuses wait for
more bytes. A call is incremental when bytes that come later do not change what
it has settled and a waiting call may be taken up again from where it stopped.
Then feeding a stream in pieces and in one piece come to the same.
-/

namespace Pupnp.Stream

/-- States with a buffer that can be extended, statuses, and what is observed at the end. -/
structure Consumer (σ β τ ω : Type) where
  extend : σ → List β → σ
  observe : σ → ω
  inv : σ → Prop
  /-- The call needs more bytes. -/
  waits : τ → Prop
  /-- A loop around the call runs again. -/
  goesOn : τ → Prop
  apart : ∀ status, goesOn status → ¬waits status
  extend_nil : ∀ p, extend p [] = p
  extend_append : ∀ p a b, extend p (a ++ b) = extend (extend p a) b
  inv_extend : ∀ p a, inv p → inv (extend p a)
  observe_extend : ∀ p a, inv p → observe (extend p a) = observe p

variable {σ β τ ω : Type} (C : Consumer σ β τ ω)

namespace Consumer

/-- Same status and observation, and the same state where work goes on from it. -/
structure Same (r r' : τ × σ) : Prop where
  status : r.1 = r'.1
  observed : C.observe r.2 = C.observe r'.2
  state : C.waits r.1 ∨ C.goesOn r.1 → r.2 = r'.2

/-- The call on one state. `cut p q` marks the extensions for which a settled call may
change its mind. -/
structure IncrementalAt (cut : σ → List β → Prop) (f : σ → τ × σ) (p : σ) : Prop where
  keeps : C.inv (f p).2
  cut_settled : ∀ q, cut p q → ¬C.goesOn (f p).1
  stable : ∀ q, ¬C.waits (f p).1 → ¬cut p q →
    C.Same (f (C.extend p q)) ((f p).1, C.extend (f p).2 q)
  resumes : ∀ q, C.waits (f p).1 → C.Same (f (C.extend (f p).2 q)) (f (C.extend p q))

def Incremental (cut : σ → List β → Prop) (f : σ → τ × σ) : Prop :=
  ∀ p, C.inv p → C.IncrementalAt cut f p

variable {C}

theorem Same.refl (r : τ × σ) : C.Same r r := ⟨rfl, rfl, fun _ => rfl⟩

theorem Same.trans {r r' r'' : τ × σ} (first : C.Same r r') (second : C.Same r' r'') :
    C.Same r r'' :=
  ⟨first.status.trans second.status, first.observed.trans second.observed,
    fun work => (first.state work).trans (second.state (first.status ▸ work))⟩

theorem Same.eq {r r' : τ × σ} (same : C.Same r r') (work : C.waits r.1 ∨ C.goesOn r.1) : r = r' :=
  Prod.ext same.status (same.state work)

theorem Same.of_eq {r r' : τ × σ} (same : r = r') : C.Same r r' := same ▸ .refl r

theorem IncrementalAt.congr {cut : σ → List β → Prop} {f h : σ → τ × σ} {p : σ}
    (at_p : C.IncrementalAt cut h p) (start : f p = h p)
    (longer : ∀ q, f (C.extend p q) = h (C.extend p q))
    (later : C.waits (h p).1 → ∀ q, f (C.extend (h p).2 q) = h (C.extend (h p).2 q)) :
    C.IncrementalAt cut f p := by
  refine ⟨start ▸ at_p.keeps, fun q bad => start ▸ at_p.cut_settled q bad, ?_, ?_⟩
  · intro q done smooth
    rw [start] at done ⊢
    rw [longer]
    exact at_p.stable q done smooth
  · intro q short
    rw [start] at short ⊢
    rw [longer, later short]
    exact at_p.resumes q short

theorem IncrementalAt.of_stable {cut : σ → List β → Prop} {f : σ → τ × σ} {p : σ}
    (keeps : C.inv (f p).2) (smooth : ∀ q, ¬cut p q) (done : ¬C.waits (f p).1)
    (stable : ∀ q, f (C.extend p q) = ((f p).1, C.extend (f p).2 q)) : C.IncrementalAt cut f p :=
  ⟨keeps, fun q bad => absurd bad (smooth q), fun q _ _ => .of_eq (stable q),
    fun _ short => absurd short done⟩

theorem Incremental.loop {cut : σ → List β → Prop} {f g : σ → τ × σ} (step : C.Incremental cut f)
    (again : τ → Prop) (work : ∀ status, again status → C.goesOn status)
    (next : ∀ p, again (f p).1 → g p = g (f p).2) (last : ∀ p, ¬again (f p).1 → g p = f p)
    (size : σ → Nat) (shrinks : ∀ p, again (f p).1 → size (f p).2 < size p)
    (cut_back : ∀ p q, again (f p).1 → ¬cut (f p).2 q)
    (settled : ∀ p q, cut p q → ¬C.goesOn (g p).1) : C.Incremental cut g := by
  -- a round that goes on is the same round on a longer buffer
  have ahead (p : σ) (q : List β) (good : C.inv p) (more : again (f p).1) :
      g (C.extend p q) = g (C.extend (f p).2 q) := by
    have goes := work _ more
    have smooth : ¬cut p q := fun bad => (step p good).cut_settled q bad goes
    have same := (step p good).stable q (C.apart _ goes) smooth
    have whole := same.eq (.inr (same.status ▸ goes))
    rw [next (C.extend p q) (by rw [whole]; exact more), whole]
  have keeps (p : σ) (good : C.inv p) : C.inv (g p).2 := by
    induction size_p : size p using Nat.strongRecOn generalizing p with
    | _ n ih =>
      by_cases more : again (f p).1
      · rw [next p more]
        exact ih _ (size_p ▸ shrinks p more) _ ((step p good).keeps) rfl
      · rw [last p more]
        exact (step p good).keeps
  refine fun p good => ⟨keeps p good, settled p, ?_, ?_⟩
  · intro q done smooth
    induction size_p : size p using Nat.strongRecOn generalizing p with
    | _ n ih =>
      by_cases more : again (f p).1
      · rw [next p more] at done ⊢
        rw [ahead p q good more]
        exact ih _ (size_p ▸ shrinks p more) _ ((step p good).keeps) done
          (cut_back p q more) rfl
      · rw [last p more] at done ⊢
        have same := (step p good).stable q done smooth
        rw [last (C.extend p q) (by rw [same.status]; exact more)]
        exact same
  · intro q short
    induction size_p : size p using Nat.strongRecOn generalizing p with
    | _ n ih =>
      by_cases more : again (f p).1
      · rw [next p more] at short ⊢
        rw [ahead p q good more]
        exact ih _ (size_p ▸ shrinks p more) _ ((step p good).keeps) short rfl
      · rw [last p more] at short ⊢
        have same := (step p good).resumes q short
        by_cases goes : again (f (C.extend p q)).1
        · have whole := same.eq (.inr (same.status ▸ work _ goes))
          rw [next _ (whole ▸ goes), next _ goes, whole]
          exact .refl _
        · rw [last _ goes, last _ (by rw [same.status]; exact goes)]
          exact same

variable (C) in
def feed [DecidablePred C.waits] (g : σ → τ × σ) : τ × σ → List (List β) → τ × σ
  | r, [] => r
  | r, q :: qs => if C.waits r.1 then feed g (g (C.extend r.2 q)) qs else r

variable [DecidablePred C.waits] {cut : σ → List β → Prop} {g : σ → τ × σ}

theorem feed_done {r : τ × σ} (done : ¬C.waits r.1) (qs : List (List β)) : C.feed g r qs = r := by
  cases qs with
  | nil => rfl
  | cons q qs => rw [feed, if_neg done]

theorem feed_append (r : τ × σ) (pre post : List (List β)) :
    C.feed g r (pre ++ post) = C.feed g (C.feed g r pre) post := by
  induction pre generalizing r with
  | nil => rfl
  | cons q pre ih =>
    rw [List.cons_append, feed, feed]
    split_ifs with short
    · exact ih _
    · rw [feed_done short]

theorem feed_rule {K : τ × σ → Prop}
    (step : ∀ r q, K r → C.waits r.1 → K (g (C.extend r.2 q))) {r : τ × σ} (start : K r)
    (qs : List (List β)) : K (C.feed g r qs) := by
  induction qs generalizing r with
  | nil => exact start
  | cons q qs ih =>
    rw [feed]
    split_ifs with short
    · exact ih (step r q start short)
    · exact start

theorem Incremental.feed_cons (inc : C.Incremental cut g) {p : σ} (good : C.inv p)
    (short : C.waits (g p).1) (q : List β) (qs : List (List β)) :
    C.Same (C.feed g (g p) (q :: qs)) (C.feed g (g (C.extend p q)) qs) := by
  have same := (inc p good).resumes q short
  rw [feed, if_pos short]
  by_cases more : C.waits (g (C.extend p q)).1
  · rw [same.eq (.inl (same.status ▸ more))]
    exact .refl _
  · rw [feed_done more, feed_done (by rw [same.status]; exact more)]
    exact same

theorem Incremental.feed_received (inc : C.Incremental cut g) {p : σ} (good : C.inv p)
    (qs : List (List β)) :
    ∃ pre post, qs = pre ++ post ∧
      C.Same (C.feed g (g p) qs) (g (C.extend p pre.flatten)) := by
  induction qs generalizing p with
  | nil => exact ⟨[], [], rfl, by rw [feed, List.flatten_nil, C.extend_nil]; exact .refl _⟩
  | cons q qs ih =>
    by_cases short : C.waits (g p).1
    · obtain ⟨pre, post, split, same⟩ := ih (C.inv_extend p q good)
      refine ⟨q :: pre, post, by rw [split, List.cons_append], ?_⟩
      rw [List.flatten_cons, C.extend_append]
      exact (inc.feed_cons good short q qs).trans same
    · refine ⟨[], q :: qs, rfl, ?_⟩
      rw [feed_done short, List.flatten_nil, C.extend_nil]
      exact .refl _

theorem Incremental.feed_waits (inc : C.Incremental cut g) {p : σ} (good : C.inv p)
    (qs : List (List β)) (short : C.waits (C.feed g (g p) qs).1) :
    C.feed g (g p) qs = g (C.extend p qs.flatten) := by
  induction qs generalizing p with
  | nil => rw [feed, List.flatten_nil, C.extend_nil]
  | cons q qs ih =>
    have early : C.waits (g p).1 := by
      by_contra done
      rw [feed_done done] at short
      exact done short
    have same := inc.feed_cons good early q qs
    have whole := same.eq (.inl short)
    rw [whole] at short ⊢
    rw [ih (C.inv_extend p q good) short, List.flatten_cons, C.extend_append]

theorem Incremental.feed_same (inc : C.Incremental cut g) (settled : ∀ p, ¬C.goesOn (g p).1)
    {p : σ} (good : C.inv p) (short : C.waits (g p).1) (qs : List (List β))
    (smooth : ∀ pre post, qs = pre ++ post → ¬cut (C.extend p pre.flatten) post.flatten) :
    C.Same (C.feed g (g p) qs) (g (C.extend p qs.flatten)) := by
  induction qs generalizing p with
  | nil =>
    rw [feed, List.flatten_nil, C.extend_nil]
    exact .refl _
  | cons q qs ih =>
    refine (inc.feed_cons good short q qs).trans ?_
    have good' := C.inv_extend p q good
    rw [List.flatten_cons, C.extend_append]
    by_cases more : C.waits (g (C.extend p q)).1
    · refine ih good' more ?_
      intro pre post split
      have boundary := smooth (q :: pre) post (by rw [split, List.cons_append])
      rwa [List.flatten_cons, C.extend_append] at boundary
    · have boundary := smooth [q] qs rfl
      rw [List.flatten_cons, List.flatten_nil, List.append_nil] at boundary
      have same := (inc _ good').stable qs.flatten more boundary
      rw [feed_done more]
      refine ⟨same.status.symm, ?_, fun work => absurd work ?_⟩
      · rw [same.observed]
        exact (C.observe_extend _ _ (inc _ good').keeps).symm
      · rintro (waits | goes)
        · exact more waits
        · exact settled _ goes

theorem Incremental.feed_cut (inc : C.Incremental cut g)
    (clash : ∀ p q, C.inv p → cut p q → ¬C.waits (g p).1 ∧ (g p).1 ≠ (g (C.extend p q)).1)
    (cut_append : ∀ p q q', cut p q → cut p (q ++ q'))
    {p : σ} (good : C.inv p) (short : C.waits (g p).1) (pre post : List (List β))
    (bad : cut (C.extend p pre.flatten) post.flatten) :
    (C.feed g (g p) (pre ++ post)).1 ≠ (g (C.extend p (pre ++ post).flatten)).1 := by
  induction pre generalizing p with
  | nil =>
    rw [List.flatten_nil, C.extend_nil] at bad
    exact absurd short (clash p _ good bad).1
  | cons q pre ih =>
    have good' := C.inv_extend p q good
    rw [List.flatten_cons, C.extend_append] at bad
    rw [List.cons_append, List.flatten_cons, C.extend_append,
      (inc.feed_cons good short q (pre ++ post)).status]
    by_cases more : C.waits (g (C.extend p q)).1
    · exact ih good' more bad
    · rw [feed_done more]
      by_cases here : cut (C.extend p q) (pre ++ post).flatten
      · exact (clash _ _ good' here).2
      · -- the settled status would be the one before the cut and the one behind it
        have early := (inc _ good').stable pre.flatten more (fun bad' => here (by
          rw [List.flatten_append]
          exact cut_append _ _ _ bad'))
        have late := (inc _ good').stable _ more here
        have differ := (clash _ _ (C.inv_extend _ _ good') bad).2
        have whole : C.extend (C.extend (C.extend p q) pre.flatten) post.flatten =
            C.extend (C.extend p q) (pre ++ post).flatten := by
          rw [← C.extend_append, List.flatten_append]
        rw [whole, early.status, late.status] at differ
        exact absurd rfl differ

theorem Incremental.feed_status_iff (inc : C.Incremental cut g) (settled : ∀ p, ¬C.goesOn (g p).1)
    (clash : ∀ p q, C.inv p → cut p q → ¬C.waits (g p).1 ∧ (g p).1 ≠ (g (C.extend p q)).1)
    (cut_append : ∀ p q q', cut p q → cut p (q ++ q'))
    {p : σ} (good : C.inv p) (short : C.waits (g p).1) (qs : List (List β)) :
    (C.feed g (g p) qs).1 = (g (C.extend p qs.flatten)).1 ↔
      ∀ pre post, qs = pre ++ post → ¬cut (C.extend p pre.flatten) post.flatten := by
  constructor
  · rintro status pre post rfl bad
    exact inc.feed_cut clash cut_append good short pre post bad status
  · intro smooth
    exact (inc.feed_same settled good short qs smooth).status

end Consumer
end Pupnp.Stream
