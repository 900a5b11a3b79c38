import PoolWatch.Proofs.Board.Moments

/-!
# Readers do not disturb one another

Whether other readers look at the board makes no difference to a reader, nor to the publisher. The
others are those that a reader does not stem from: a clone starts with what its original has seen,
so looks of an original before the clone do show.
-/

namespace PoolWatch.Board

/-! ## Histories with fewer looks -/

/-- The reader that a step is addressed to. The other steps are addressed to the publisher. -/
def Step.reader? : Step → Option Nat
  | .clone r | .dropReader r | .current r | .changed r => some r
  | _ => none

/-- The reader that looks at the board in a step. -/
def Step.looker? : Step → Option Nat
  | .current r | .changed r => some r
  | _ => none

/-- A reader and all that it stems from. -/
inductive Lineage (steps : List Step) (reader : Nat) : Nat → Prop
  | self : Lineage steps reader reader
  | original {i original new : Nat} : Lineage steps reader new →
    steps[i]? = some (.clone original) → told steps i = some (.reader new) →
    Lineage steps reader original

/-- The second history is the first without some looks of readers that are apart. -/
inductive Thinned (apart : Nat → Prop) : List Step → List Step → Prop
  | nil : Thinned apart [] []
  | keep (s : Step) {steps fewer : List Step} : Thinned apart steps fewer →
    Thinned apart (s :: steps) (s :: fewer)
  | skip {s : Step} {r : Nat} {steps fewer : List Step} : s.looker? = some r → apart r →
    Thinned apart steps fewer → Thinned apart (s :: steps) fewer

/-! ## What shows of a history -/

/-- The steps that are addressed to a reader or to the publisher, and how they are answered. -/
def dealings (reader : Nat) (b : Board) (steps : List Step) : List (Step × Answer) :=
  (steps.zip (b.answers steps)).filter fun p => p.1.reader?.all (· == reader)

/-- The frames that are put up, in their order. -/
def putUp (b : Board) : List Step → List Frame
  | [] => []
  | s :: rest =>
    (if b.published && s.replaces then [(b.step s).2.frame] else []) ++ putUp (b.step s).2 rest

theorem dealings_cons (reader : Nat) (b : Board) (s : Step) (rest : List Step) :
    dealings reader b (s :: rest) =
      (if s.reader?.all (· == reader) then [(s, (b.step s).1)] else []) ++
        dealings reader (b.step s).2 rest := by
  rw [dealings, answers, List.zip_cons_cons, List.filter_cons]
  split <;> rfl

/-! ## Boards that look alike -/

/-- Two boards that differ at most in how far readers outside of a family have seen. -/
structure Alike (family : Nat → Prop) (b c : Board) : Prop where
  frame : b.frame = c.frame
  version : b.version = c.version
  published : b.published = c.published
  length : b.readers.length = c.readers.length
  seen : ∀ r, family r → b.seen? r = c.seen? r
  present : ∀ r, (b.seen? r).isSome = (c.seen? r).isSome

/-- Clones in the family stem from the family. -/
def Closed (family : Nat → Prop) (b : Board) (steps : List Step) : Prop :=
  ∀ i original new : Nat, steps[i]? = some (.clone original) →
    (b.answers steps)[i]? = some (.reader new) → family new → family original

variable {family : Nat → Prop} {b c : Board}

theorem Alike.refl (b : Board) : Alike family b b :=
  ⟨rfl, rfl, rfl, rfl, fun _ _ => rfl, fun _ => rfl⟩

theorem Closed.head {s : Step} {rest : List Step} (h : Closed family b (s :: rest)) {original : Nat}
    (hs : s = .clone original) {new : Nat} (hnew : (b.step s).1 = .reader new)
    (hfamily : family new) : family original :=
  h 0 original new (congrArg some hs) (congrArg some hnew) hfamily

theorem Closed.tail {s : Step} {rest : List Step} (h : Closed family b (s :: rest)) :
    Closed family (b.step s).2 rest :=
  fun i => h (i + 1)

theorem Alike.cases (h : Alike family b c) (r : Nat) :
    (b.seen? r = none ∧ c.seen? r = none) ∨
      ∃ seen seen', b.seen? r = some seen ∧ c.seen? r = some seen' ∧ (family r → seen = seen') := by
  have hpresent := h.present r
  cases hb : b.seen? r with
  | none =>
    rw [hb] at hpresent
    exact .inl ⟨rfl, Option.not_isSome_iff_eq_none.mp (by simp [← hpresent])⟩
  | some seen =>
    rw [hb] at hpresent
    obtain ⟨seen', hc⟩ := Option.isSome_iff_exists.mp hpresent.symm
    refine .inr ⟨seen, seen', rfl, hc, fun hfamily => ?_⟩
    have hsame := h.seen r hfamily
    rw [hb, hc] at hsame
    exact Option.some.inj hsame

/-! ## Changes of both boards -/

theorem Alike.replace (h : Alike family b c) (f : Frame) :
    Alike family (b.replace f) (c.replace f) :=
  { h with frame := rfl, version := congrArg (· + 1) h.version }

theorem Alike.close (h : Alike family b c) : Alike family b.close c.close :=
  { h with published := rfl }

theorem Alike.join (h : Alike family b c) {seen seen' : Nat}
    (hseen : family b.readers.length → seen = seen') :
    Alike family (b.join seen) (c.join seen') where
  frame := h.frame
  version := h.version
  published := h.published
  length := by simp [Board.join, h.length]
  seen := by
    intro r hfamily
    rw [seen?_join, seen?_join, h.seen r hfamily, h.length]
    split
    · next hnew => rw [hseen (by rwa [h.length, ← hnew])]
    · rfl
  present := by
    intro r
    rw [seen?_join, seen?_join, h.length]
    split
    · rfl
    · exact h.present r

theorem Alike.leave (h : Alike family b c) (r : Nat) : Alike family (b.leave r) (c.leave r) where
  frame := h.frame
  version := h.version
  published := h.published
  length := by simp [Board.leave, h.length]
  seen := by
    intro other hfamily
    rw [seen?_leave, seen?_leave, h.seen other hfamily]
  present := by
    intro other
    rw [seen?_leave, seen?_leave]
    split
    · rfl
    · exact h.present other

theorem Alike.markSeen (h : Alike family b c) {r seen seen' : Nat} (hb : b.seen? r = some seen)
    (hc : c.seen? r = some seen') : Alike family (b.markSeen r) (c.markSeen r) where
  frame := h.frame
  version := h.version
  published := h.published
  length := by simp [Board.markSeen, h.length]
  seen := by
    intro other hfamily
    rw [seen?_markSeen hb, seen?_markSeen hc, h.seen other hfamily, h.version]
  present := by
    intro other
    rw [seen?_markSeen hb, seen?_markSeen hc]
    split
    · rfl
    · exact h.present other

theorem Alike.markSeen_left (h : Alike family b c) {r seen : Nat} (hb : b.seen? r = some seen)
    (hr : ¬ family r) : Alike family (b.markSeen r) c where
  frame := h.frame
  version := h.version
  published := h.published
  length := by simp [Board.markSeen, h.length]
  seen := by
    intro other hfamily
    rw [seen?_markSeen hb, if_neg (by rintro rfl; exact hr hfamily), h.seen other hfamily]
  present := by
    intro other
    rw [seen?_markSeen hb, ← h.present other]
    split
    · next hother => rw [hother, hb]; rfl
    · rfl

/-! ## Steps -/

/-- How a step ends on the two boards. Its answers are the same as far as they are to show. -/
def Agree (family : Nat → Prop) (shown : Prop) (x y : Answer × Board) : Prop :=
  (shown → x.1 = y.1) ∧ Alike family x.2 y.2

variable {shown : Prop}

theorem Alike.publisherStep (h : Alike family b c) {answer answer' : Answer} {next next' : Board}
    (hnext : Agree family shown (answer, next) (answer', next')) :
    Agree family shown (b.publisherStep answer next) (c.publisherStep answer' next') := by
  unfold Board.publisherStep
  rw [← h.published]
  split
  · exact hnext
  · exact ⟨fun _ => rfl, h⟩

theorem Alike.readerStep (h : Alike family b c) {r : Nat} {next next' : Nat → Answer × Board}
    (hnext : ∀ seen seen', b.seen? r = some seen → c.seen? r = some seen' →
      (family r → seen = seen') → Agree family shown (next seen) (next' seen')) :
    Agree family shown (b.readerStep r next) (c.readerStep r next') := by
  unfold Board.readerStep
  rcases h.cases r with ⟨hb, hc⟩ | ⟨seen, seen', hb, hc, hsame⟩
  · rw [hb, hc]
    exact ⟨fun _ => rfl, h⟩
  · rw [hb, hc]
    exact hnext seen seen' hb hc hsame

/-- The same step on both boards. Only one who is outside of the family can tell them apart, and
only by looking. -/
theorem Alike.step (h : Alike family b c) {s : Step}
    (hclone : ∀ original new, s = .clone original → (b.step s).1 = .reader new → family new →
      family original) :
    Agree family (∀ r, s.looker? = some r → family r) (b.step s) (c.step s) := by
  cases s with
  | subscribe =>
    refine h.publisherStep ⟨fun _ => by rw [h.length], ?_⟩
    rw [h.version]
    exact h.join fun _ => rfl
  | clone original =>
    refine h.readerStep fun seen seen' hb hc hsame => ⟨fun _ => by rw [h.length], h.join ?_⟩
    intro hnew
    exact hsame (hclone original _ rfl (by simp [Board.step, Board.readerStep, hb]) hnew)
  | beginCycle n =>
    refine h.publisherStep ⟨fun _ => rfl, ?_⟩
    rw [h.frame]
    exact h.replace _
  | publish model time =>
    refine h.publisherStep ⟨fun _ => rfl, ?_⟩
    rw [h.frame]
    exact h.replace _
  | shutdown time =>
    refine h.publisherStep ⟨fun _ => rfl, ?_⟩
    rw [h.frame]
    exact (h.replace _).close
  | dropPublisher => exact h.publisherStep ⟨fun _ => rfl, h.close⟩
  | dropReader r => exact h.readerStep fun _ _ _ _ _ => ⟨fun _ => rfl, h.leave r⟩
  | current r => exact h.readerStep fun _ _ _ _ _ => ⟨fun _ => by rw [h.frame], h⟩
  | changed r =>
    refine h.readerStep fun seen seen' hb hc hsame => ⟨fun hshown => ?_, h.markSeen hb hc⟩
    rw [hsame (hshown r rfl), change, change, h.frame, h.version, h.published]

theorem Alike.look (h : Alike family b c) {s : Step} {r : Nat} (hs : s.looker? = some r)
    (hr : ¬ family r) : Alike family (b.step s).2 c := by
  cases s with
  | current asking =>
    cases hb : b.seen? asking <;> simpa [Board.step, Board.readerStep, hb] using h
  | changed asking =>
    obtain rfl : asking = r := Option.some.inj hs
    cases hb : b.seen? asking with
    | none => simpa [Board.step, Board.readerStep, hb] using h
    | some seen =>
      simp only [Board.step, Board.readerStep, hb]
      exact h.markSeen_left hb hr
  | _ => cases hs

/-! ## Histories -/

theorem Step.look_cases {s : Step} {r : Nat} (hs : s.looker? = some r) :
    s.reader? = some r ∧ s.replaces = false := by
  cases s <;> simp_all [looker?, reader?, replaces]

theorem Alike.thinned (h : Alike family b c) {steps fewer : List Step}
    (hthin : Thinned (fun r => ¬ family r) steps fewer) (hclosed : Closed family b steps)
    {reader : Nat} (hreader : family reader) :
    dealings reader b steps = dealings reader c fewer ∧ putUp b steps = putUp c fewer := by
  induction hthin generalizing b c with
  | nil => exact ⟨rfl, rfl⟩
  | @keep s steps fewer _ ih =>
    obtain ⟨hanswer, hnext⟩ := h.step (s := s) fun _ _ hs => hclosed.head hs
    obtain ⟨hdealings, hputUp⟩ := ih hnext hclosed.tail
    refine ⟨?_, ?_⟩
    · rw [dealings_cons, dealings_cons, hdealings]
      split
      · next hconcerns =>
        rw [hanswer]
        intro r hlook
        rw [(Step.look_cases hlook).1] at hconcerns
        rwa [beq_iff_eq.mp hconcerns]
      · rfl
    · rw [putUp, putUp, hputUp, h.published, hnext.frame]
  | @skip s r steps fewer hlook hr _ ih =>
    obtain ⟨hdealings, hputUp⟩ := ih (h.look hlook hr) hclosed.tail
    obtain ⟨haddressed, hreplaces⟩ := Step.look_cases hlook
    have hother : r ≠ reader := by
      rintro rfl
      exact hr hreader
    refine ⟨?_, ?_⟩
    · rw [dealings_cons, haddressed, Option.all_some, if_neg (by simpa using hother), ← hdealings]
      rfl
    · rw [putUp, hreplaces, ← hputUp, Bool.and_false, if_neg Bool.false_ne_true, List.nil_append]

theorem lineage_closed (steps : List Step) (reader : Nat) :
    Closed (Lineage steps reader) .new steps :=
  fun _ _ _ hclone htold hnew => .original hnew hclone htold

/-- If some looks are left out that readers take whom a reader does not stem from, then this reader
and the publisher are answered as before at every step, and the same frames are put up. -/
theorem dealings_thinned (steps fewer : List Step) (reader : Nat)
    (h : Thinned (fun r => ¬ Lineage steps reader r) steps fewer) :
    dealings reader .new fewer = dealings reader .new steps ∧
      putUp .new fewer = putUp .new steps := by
  obtain ⟨hdealings, hputUp⟩ :=
    (Alike.refl .new).thinned h (lineage_closed steps reader) Lineage.self
  exact ⟨hdealings.symm, hputUp.symm⟩

/-! ## Originals come first -/

theorem original_lt {steps : List Step} {i original new : Nat}
    (hs : steps[i]? = some (.clone original)) (h : told steps i = some (.reader new)) :
    original < new := by
  rw [told_eq hs] at h
  have hstep := Option.some.inj h
  rw [reader_step hstep]
  cases hseen : (reached steps i).seen? original with
  | none => simp [step, readerStep, hseen] at hstep
  | some seen => exact seen?_lt hseen

theorem Lineage.le {steps : List Step} {reader r : Nat} (h : Lineage steps reader r) :
    r ≤ reader := by
  induction h with
  | self => exact Nat.le_refl _
  | original _ hs htold ih =>
    have hlt := original_lt hs htold
    omega

/-! ## A crowd -/

/-- Reader 1 is a clone of reader 0, and reader 3 one of reader 1. Reader 2 comes by itself. -/
def crowd : List Step :=
  [.clone 0, .subscribe, .clone 1, .beginCycle 1, .changed 2, .changed 3, .changed 1, .beginCycle 2,
    .changed 3, .current 2, .changed 1, .changed 1]

def crowdUnwatched : List Step :=
  [.clone 0, .subscribe, .clone 1, .beginCycle 1, .changed 1, .beginCycle 2, .changed 1, .changed 1]

theorem crowd_thinned :
    Thinned (fun r => ¬ Lineage crowd 1 r) crowd crowdUnwatched := by
  have hlater : ∀ r, 1 < r → ¬ Lineage crowd 1 r := fun r hr hlineage => by
    have hle := hlineage.le
    omega
  refine .keep _ (.keep _ (.keep _ (.keep _ ?_)))
  refine .skip rfl (hlater 2 (by decide)) (.skip rfl (hlater 3 (by decide)) ?_)
  refine .keep _ (.keep _ ?_)
  refine .skip rfl (hlater 3 (by decide)) (.skip rfl (hlater 2 (by decide)) ?_)
  exact .keep _ (.keep _ .nil)

theorem crowd_dealings :
    Thinned (fun r => ¬ Lineage crowd 1 r) crowd crowdUnwatched ∧
      (dealings 1 .new crowdUnwatched = dealings 1 .new crowd ∧
        putUp .new crowdUnwatched = putUp .new crowd) ∧
      dealings 1 .new crowd =
        [(.subscribe, .reader 2), (.clone 1, .reader 3), (.beginCycle 1, .done),
          (.changed 1, .frame ⟨1, .polling, .pending, none⟩), (.beginCycle 2, .done),
          (.changed 1, .frame ⟨2, .polling, .pending, none⟩), (.changed 1, .waiting)] :=
  ⟨crowd_thinned, dealings_thinned _ _ _ crowd_thinned, rfl⟩

end PoolWatch.Board
