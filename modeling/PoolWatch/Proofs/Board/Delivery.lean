import PoolWatch.Proofs.Board.Moments

/-!
# What readers are told

A reader who asks is told of what has been published since it was told before, as the newest frame
only. When there is nothing new it has to wait, and it need not wait once the publisher is gone.
-/

namespace PoolWatch.Board

/-- At step `i` a reader asks that has seen everything up to a moment. -/
structure Asks (steps : List Step) (i reader since : Nat) : Prop where
  step : steps[i]? = some (.changed reader)
  seen : seenPoint? steps i reader = some since

variable {steps : List Step} {i j reader since point : Nat}

/-! ## One reader asks -/

theorem Asks.told (h : Asks steps i reader since) :
    (News steps since i ∧ told steps i = some (.frame (newest steps i))) ∨
    (¬ News steps since i ∧ told steps i = some (if gone steps i then .closed else .waiting)) := by
  rw [told_eq h.step, Board.step, readerStep, reached_seen_some h.seen,
    ← reached_version_lt (seenPoint?_le h.seen), ← reached_frame]
  by_cases hnews : (reached steps since).version < (reached steps i).version
  · exact .inl ⟨hnews, by simp only [change, if_pos hnews, ofChange]⟩
  · refine .inr ⟨hnews, ?_⟩
    simp only [change, if_neg hnews, reached_published]
    cases gone steps i <;> rfl

theorem Asks.news_of_frame (h : Asks steps i reader since) {f : Frame}
    (hf : Board.told steps i = some (.frame f)) : News steps since i ∧ f = newest steps i := by
  rcases h.told with ⟨hnews, htold⟩ | ⟨-, htold⟩
  · exact ⟨hnews, by simpa [hf] using htold⟩
  · rw [hf] at htold
    cases hgone : gone steps i <;> simp [hgone] at htold

theorem Asks.not_updated (h : Asks steps i reader since) : updated steps i = false := by
  rw [updated, h.step]
  rfl

theorem Asks.next (h : Asks steps i reader since) :
    (News steps since i ∧ seenPoint? steps (i + 1) reader = some i) ∨
    (¬ News steps since i ∧ seenPoint? steps (i + 1) reader = some since) := by
  rw [seenPoint?, h.step]
  rcases h.told with ⟨hnews, htold⟩ | ⟨hnews, htold⟩
  · exact .inl ⟨hnews, by simp [htold, seenAfter]⟩
  · refine .inr ⟨hnews, ?_⟩
    rw [htold]
    cases gone steps i <;> exact h.seen

theorem Asks.caught_up (h : Asks steps i reader since) :
    ∃ point, seenPoint? steps (i + 1) reader = some point ∧ ¬ News steps point (i + 1) := by
  have hlast := h.not_updated
  rcases h.next with ⟨-, hpoint⟩ | ⟨hnone, hpoint⟩
  · refine ⟨i, hpoint, ?_⟩
    rintro ⟨u, hi, hu, hupdated⟩
    obtain rfl : u = i := by omega
    simp [hlast] at hupdated
  · refine ⟨since, hpoint, ?_⟩
    rintro ⟨u, hu, hlt, hupdated⟩
    rcases Nat.eq_or_lt_of_le (Nat.le_of_lt_succ hlt) with rfl | hlt
    · simp [hlast] at hupdated
    · exact hnone ⟨u, hu, hlt, hupdated⟩

theorem told_noReader (h : steps[i]? = some (.changed reader)) :
    told steps i = some .noReader ↔ seenPoint? steps i reader = none := by
  cases hsince : seenPoint? steps i reader with
  | none =>
    have hseen : (reached steps i).seen? reader = none := by
      rw [reached_seen, hsince]
      rfl
    simp [told_eq h, step, readerStep, hseen]
  | some since =>
    have hasks : Asks steps i reader since := ⟨h, hsince⟩
    rcases hasks.told with ⟨-, htold⟩ | ⟨-, htold⟩
    · simp [htold]
    · rw [htold]
      cases gone steps i <;> simp

/-! ## One reader over time -/

theorem readers_mono (h : i ≤ j) :
    (reached steps i).readers.length ≤ (reached steps j).readers.length := by
  induction h with
  | refl => exact Nat.le_refl _
  | @step j _ ih =>
    cases hs : steps[j]? with
    | none => rwa [reached_past hs]
    | some s =>
      rw [reached_succ hs]
      exact Nat.le_trans ih (readers_step _ s)

theorem newcomer_fresh {new : Nat} (h : told steps i = some (.reader new)) (hj : j ≤ i) :
    seenPoint? steps j new = none := by
  have hname : new = (reached steps i).readers.length := by
    cases hs : steps[i]? with
    | none => simp [told, answers_getElem?, hs] at h
    | some s =>
      rw [told_eq hs] at h
      exact reader_step (Option.some.inj h)
  have hmono : (reached steps j).readers.length ≤ (reached steps i).readers.length :=
    readers_mono hj
  cases hsince : seenPoint? steps j new with
  | none => rfl
  | some since =>
    have hlt := seen?_lt (reached_seen_some hsince)
    omega

theorem seenAfter_stays {α : Type} {now : α} {seen : Nat → Option α} {s : Step} {a : Answer} {x : α}
    (ha : a ≠ .reader reader) (h : seenAfter now seen reader s a = some x) :
    (x = now ∧ s = .changed reader ∧ ∃ f, a = .frame f) ∨ seen reader = some x := by
  cases s <;> cases a <;> simp only [seenAfter] at h <;> grind

theorem seenPoint?_back (hij : i ≤ j) (hi : seenPoint? steps i reader = some since)
    (hj : seenPoint? steps (j + 1) reader = some point) :
    (point = j ∧ steps[j]? = some (.changed reader) ∧ ∃ f, told steps j = some (.frame f)) ∨
    seenPoint? steps j reader = some point := by
  cases hs : steps[j]? with
  | none =>
    rw [seenPoint?_past hs] at hj
    exact .inr hj
  | some s =>
    have hold : ((reached steps j).step s).1 ≠ .reader reader := by
      intro hnew
      rw [← Option.some_inj, ← told_eq hs] at hnew
      have hnone := newcomer_fresh hnew hij
      simp [hi] at hnone
    rw [seenPoint?_succ hs] at hj
    rcases seenAfter_stays hold hj with ⟨rfl, rfl, f, hf⟩ | hj
    · exact .inl ⟨rfl, rfl, f, by rw [told_eq hs, hf]⟩
    · exact .inr hj

theorem seenPoint?_mono (hij : i ≤ j) (hi : seenPoint? steps i reader = some since)
    (hj : seenPoint? steps j reader = some point) : since ≤ point := by
  induction hij generalizing point with
  | refl => exact Nat.le_of_eq (Option.some.inj (hi.symm.trans hj))
  | @step j hij ih =>
    rcases seenPoint?_back hij hi hj with ⟨rfl, -, -⟩ | hj
    · exact Nat.le_trans (seenPoint?_le hi) hij
    · exact ih hj

/-- A reader who has seen more than it had at some moment has been given a frame since. -/
theorem given_since (hij : i ≤ j) (hi : seenPoint? steps i reader = some since)
    (hj : seenPoint? steps j reader = some point) (hmore : i < point) :
    ∃ k seen f, i ≤ k ∧ k < j ∧ Asks steps k reader seen ∧ told steps k = some (.frame f) := by
  induction hij generalizing point with
  | refl =>
    have hle := seenPoint?_le hj
    omega
  | @step j hij ih =>
    rcases seenPoint?_back hij hi hj with ⟨rfl, hs, f, hf⟩ | hj
    · -- The last step has moved it, so that is the one.
      have hthere : seenPoint? steps point reader ≠ none := by
        rw [Ne, ← told_noReader hs, hf]
        simp
      obtain ⟨seen, hseen⟩ := Option.ne_none_iff_exists'.mp hthere
      exact ⟨point, seen, f, hij, Nat.lt_succ_self _, ⟨hs, hseen⟩, hf⟩
    · obtain ⟨k, seen, f, hk, hlt, hgiven⟩ := ih hj hmore
      exact ⟨k, seen, f, hk, Nat.lt_succ_of_lt hlt, hgiven⟩

/-- Between two times that a reader asks, only what happens in between is news. -/
theorem news_between (hij : i < j) (hi : Asks steps i reader since)
    (hj : Asks steps j reader point) (hnews : News steps point j) : News steps (i + 1) j := by
  obtain ⟨caught, hcaught, hnone⟩ := hi.caught_up
  have hle : caught ≤ point := seenPoint?_mono hij hcaught hj.seen
  obtain ⟨u, hu, hlt, hupdated⟩ := hnews
  refine ⟨u, ?_, hlt, hupdated⟩
  by_cases hearly : u < i + 1
  · exact absurd ⟨u, by omega, hearly, hupdated⟩ hnone
  · omega

/-! ## The end -/

theorem not_news_of_gone (h : gone steps i = true) : ¬ News steps i j := by
  rintro ⟨u, hu, -, hupdated⟩
  simp [updated, gone_mono hu h] at hupdated

theorem newest_gone (hij : i ≤ j) (h : gone steps i = true) : newest steps j = newest steps i := by
  induction hij with
  | refl => rfl
  | step hij ih => rw [newest, if_pos (gone_mono hij h), ih]

theorem newest_shutdown {time : Timestamp} (h : steps[i]? = some (.shutdown time))
    (hopen : gone steps i = false) (hij : i < j) :
    newest steps j = ⟨(newest steps i).cycle, .idle, .stopped, some time⟩ := by
  have hgone : gone steps (i + 1) = true := by
    rw [gone_succ, h]
    exact Bool.or_true _
  rw [newest_gone hij hgone, newest, hopen, h]
  rfl

/-! ## Looking without asking -/

theorem step_current (b : Board) (reader : Nat) : (b.step (.current reader)).2 = b := by
  cases hs : b.seen? reader <;> simp [step, readerStep, hs]

theorem answers_eraseIdx (b : Board) (h : steps[i]? = some (.current reader)) :
    b.answers (steps.eraseIdx i) = (b.answers steps).eraseIdx i := by
  induction steps generalizing b i with
  | nil => simp at h
  | cons s rest ih =>
    cases i with
    | zero =>
      obtain rfl : s = .current reader := by simpa using h
      rw [List.eraseIdx_cons_zero, answers, List.eraseIdx_cons_zero, step_current]
    | succ i =>
      have hrest : rest[i]? = some (.current reader) := by simpa using h
      rw [List.eraseIdx_cons_succ, answers, answers, List.eraseIdx_cons_succ, ih _ hrest]

/-! ## Whole histories -/

/-- How the readers of a board are told of what is published. -/
structure Delivery (steps : List Step) : Prop where
  subscribe : ∀ i, steps[i]? = some .subscribe → gone steps i = false →
    ∃ new, told steps i = some (.reader new) ∧ seenPoint? steps (i + 1) new = some i
  clone : ∀ i original since, steps[i]? = some (.clone original) →
    seenPoint? steps i original = some since →
    ∃ new, told steps i = some (.reader new) ∧ seenPoint? steps (i + 1) new = some since
  fresh : ∀ i new, told steps i = some (.reader new) → ∀ j ≤ i, seenPoint? steps j new = none
  no_reader : ∀ i reader, steps[i]? = some (.changed reader) →
    (told steps i = some .noReader ↔ seenPoint? steps i reader = none)
  frame_iff : ∀ i reader since, Asks steps i reader since →
    ((∃ f, told steps i = some (.frame f)) ↔ News steps since i)
  frame_newest : ∀ i reader since f, Asks steps i reader since → told steps i = some (.frame f) →
    f = newest steps i ∧ seenPoint? steps (i + 1) reader = some i
  nothing_new : ∀ i reader since, Asks steps i reader since → ¬ News steps since i →
    told steps i = some (if gone steps i then .closed else .waiting)
  /-- A frame is given only for what was published since the reader asked before. -/
  in_order : ∀ i j reader since point f, i < j → Asks steps i reader since →
    Asks steps j reader point → told steps j = some (.frame f) → News steps (i + 1) j
  /-- A reader who asks has by then been given all that was published while it was there. -/
  never_lost : ∀ u i reader since, updated steps u = true → seenPoint? steps u reader ≠ none →
    u < i → Asks steps i reader since →
    ∃ k, u < k ∧ k ≤ i ∧ steps[k]? = some (.changed reader) ∧
      told steps k = some (.frame (newest steps k))
  /-- Once the publisher is gone a reader is given one frame at most. -/
  closed : ∀ i j reader since point, gone steps i = true → i < j → Asks steps i reader since →
    Asks steps j reader point → told steps j = some .closed
  stopped : ∀ e i reader since time f, steps[e]? = some (.shutdown time) → gone steps e = false →
    e < i → Asks steps i reader since → told steps i = some (.frame f) →
    f = ⟨(newest steps e).cycle, .idle, .stopped, some time⟩
  current : ∀ i reader, steps[i]? = some (.current reader) →
    Board.new.answers (steps.eraseIdx i) = (Board.new.answers steps).eraseIdx i

/-- For every history, any number of readers and any end. -/
theorem delivery (steps : List Step) : Delivery steps where
  subscribe := by
    intro i h hopen
    have hpublished : (reached steps i).published = true := by rw [reached_published, hopen]; rfl
    have htold : told steps i = some (.reader (reached steps i).readers.length) := by
      simp [told_eq h, step, publisherStep, hpublished]
    exact ⟨_, htold, by rw [seenPoint?, h, htold]; simp [seenAfter]⟩
  clone := by
    intro i original since h hsince
    have hseen := reached_seen_some hsince
    have htold : told steps i = some (.reader (reached steps i).readers.length) := by
      simp [told_eq h, step, readerStep, hseen]
    exact ⟨_, htold, by rw [seenPoint?, h, htold]; simp [seenAfter, hsince]⟩
  fresh := fun _ _ h _ hj => newcomer_fresh h hj
  no_reader := fun _ _ h => told_noReader h
  frame_iff := by
    intro i reader since h
    constructor
    · rintro ⟨f, hf⟩
      exact (h.news_of_frame hf).1
    · intro hnews
      rcases h.told with ⟨-, hf⟩ | ⟨hnone, -⟩
      · exact ⟨_, hf⟩
      · exact absurd hnews hnone
  frame_newest := by
    intro i reader since f h hf
    obtain ⟨hnews, hnewest⟩ := h.news_of_frame hf
    rcases h.next with ⟨-, hpoint⟩ | ⟨hnone, -⟩
    · exact ⟨hnewest, hpoint⟩
    · exact absurd hnews hnone
  nothing_new := by
    intro i reader since h hnone
    rcases h.told with ⟨hnews, -⟩ | ⟨-, htold⟩
    · exact absurd hnews hnone
    · exact htold
  in_order := by
    intro i j reader since point f hij hi hj hf
    exact news_between hij hi hj (hj.news_of_frame hf).1
  never_lost := by
    intro u i reader since hupdated hthere hu h
    obtain ⟨before, hbefore⟩ := Option.ne_none_iff_exists'.mp hthere
    by_cases hle : since ≤ u
    · rcases h.told with ⟨-, hf⟩ | ⟨hnone, -⟩
      · exact ⟨i, hu, Nat.le_refl i, h.step, hf⟩
      · exact absurd ⟨u, hle, hu, hupdated⟩ hnone
    · -- The reader has moved on since the update, so it was given a frame meanwhile.
      obtain ⟨k, seen, f, hk, hlt, hasks, hf⟩ :=
        given_since (Nat.le_of_lt hu) hbefore h.seen (by omega)
      obtain ⟨-, rfl⟩ := hasks.news_of_frame hf
      have hne : u ≠ k := by
        rintro rfl
        simp [hasks.not_updated] at hupdated
      exact ⟨k, by omega, Nat.le_of_lt hlt, hasks.step, hf⟩
  closed := by
    intro i j reader since point hgone hij hi hj
    rcases hj.told with ⟨hnews, -⟩ | ⟨-, htold⟩
    · exact absurd (news_between hij hi hj hnews)
        (not_news_of_gone (gone_mono (Nat.le_succ i) hgone))
    · rw [htold, if_pos (gone_mono (Nat.le_of_lt hij) hgone)]
  stopped := by
    intro e i reader since time f he hopen hei h hf
    obtain ⟨-, rfl⟩ := h.news_of_frame hf
    exact newest_shutdown he hopen hei
  current := fun _ _ h => answers_eraseIdx .new h

/-- A clone has seen what its original had seen, and may miss an outcome but not the end. -/
example (t : Timestamp) : Board.new.answers
    [.beginCycle 1, .changed 0, .clone 0, .publish .failed t, .changed 0, .changed 0, .shutdown t,
      .changed 1, .changed 1] =
    [.done, .frame ⟨1, .polling, .pending, none⟩, .reader 1, .done,
      .frame ⟨1, .idle, .failed, some t⟩, .waiting, .done, .frame ⟨1, .idle, .stopped, some t⟩,
      .closed] := rfl

end PoolWatch.Board
