import PoolWatch.Proofs.Relay.Hop

/-!
# Which forms are too long

Two limits stand between a form and the relay: the one of the settings, and one on every form. The
smaller of them decides, whether or not the client says how long the form is.
-/

namespace PoolWatch.Relay

/-- A form that is posted on the route, of any length. -/
structure Posted (route : Route) (r : Incoming) : Prop where
  post : r.method = "POST"
  onRoute : route.accepts (pathOf r.target) = true
  form : isForm r.contentType = true

/-! ## Other answers -/

theorem ofError_status_ne (e : RelayError) : (ofError e).status ≠ 413 := by
  cases e <;> simp [ofError, plain, RelayError.status]

theorem answer_status_ne (target : String) (result : Except Http.ExchangeError Http.Answer) :
    (answer target result).status ≠ 413 := by
  unfold answer
  split
  · exact ofError_status_ne _
  · split
    · exact ofError_status_ne _
    · simp

section

variable {s : RelaySettings} {route : Route} {r : Incoming}

theorem Reaches.status_ne (h : Reaches s route r) (network : Http.Network) :
    (handle s route network r).2.status ≠ 413 := by
  rw [handle_inside h]
  cases hread : readOrder ⟨none, none⟩ (Form.decode r.body) with
  | error name =>
    rw [(accept_repeated h hread network).2]
    decide
  | ok o =>
    cases horder : order? o with
    | error e =>
      rw [accept_refused h hread horder]
      exact ofError_status_ne e
    | ok fields =>
      rw [accept_passed h hread horder]
      exact answer_status_ne _ _

/-! ## Forms -/

-- A declared length over the limit of the settings is met first, and the client is told in other
-- words. The status is the same.
theorem Posted.refused (h : Posted route r)
    (hlong : min s.maxBodyBytes.toNat formLimit < r.body.length) (network : Http.Network) :
    (handle s route network r).1 = [] ∧ (handle s route network r).2.status = 413 := by
  obtain ⟨hpost, hroute, hform⟩ := h
  have hkept : handle s route network r = dispatch s route network r := by
    simp [handle, hpost]
  rw [hkept]
  unfold dispatch
  dsimp only
  split
  · exact ⟨rfl, rfl⟩
  · rw [if_neg (by simp [hroute]), if_neg (by simp [hpost])]
    unfold accept
    rw [if_neg (by simp [hform]), if_pos hlong]
    exact ⟨rfl, rfl⟩

theorem Posted.reaches (h : Posted route r)
    (hshort : ¬ min s.maxBodyBytes.toNat formLimit < r.body.length) : Reaches s route r := by
  have hboth : r.body.length ≤ s.maxBodyBytes.toNat ∧ r.body.length ≤ formLimit := by omega
  exact ⟨h.post, h.onRoute, h.form, hboth.1, hboth.2⟩

theorem Posted.status_iff (h : Posted route r) (network : Http.Network) :
    (handle s route network r).2.status = 413 ↔
      min s.maxBodyBytes.toNat formLimit < r.body.length := by
  constructor
  · intro hstatus
    by_contra hshort
    exact (h.reaches hshort).status_ne network hstatus
  · exact fun hlong => (h.refused hlong network).2

/-- A form is refused for its length exactly if it is longer than one of the two limits, and then
nothing is sent. So the limit of the settings is the relay's up to the limit on forms, and no longer
form is ever taken. -/
theorem too_large_iff (s : RelaySettings) (route : Route) (network : Http.Network) (r : Incoming)
    (h : Posted route r) :
    ((handle s route network r).2.status = 413 ↔
        s.maxBodyBytes.toNat < r.body.length ∨ formLimit < r.body.length) ∧
      ((handle s route network r).2.status = 413 → (handle s route network r).1 = []) ∧
      (s.maxBodyBytes.toNat ≤ formLimit →
        ((handle s route network r).2.status = 413 ↔ s.maxBodyBytes.toNat < r.body.length)) := by
  rw [h.status_iff network, min_lt_iff]
  exact ⟨Iff.rfl, fun hlong => (h.refused (min_lt_iff.mpr hlong) network).1, fun hlimit => by omega⟩

/-! ## Two limits at work -/

/-- The defaults with another limit. -/
def limited (maxBodyBytes : UInt64) : RelaySettings :=
  { Settings.default.relay with maxBodyBytes }

/-- A post of one letter again and again to the default path. -/
def letters (count : Nat) (declared : Bool) : Incoming :=
  ⟨"POST", "/xmlrpc-socket", some "application/x-www-form-urlencoded", List.replicate count 0x79,
    declared⟩

theorem letters_posted (count : Nat) (declared : Bool) :
    Posted socketRoute (letters count declared) where
  post := rfl
  onRoute := (by decide +kernel : socketRoute.accepts (pathOf "/xmlrpc-socket") = true)
  form :=
    (by decide +kernel : isForm (some "application/x-www-form-urlencoded") = true)

theorem letters_length (count : Nat) (declared : Bool) :
    (letters count declared).body.length = count := List.length_replicate

theorem letters_status (limit : UInt64) (count : Nat) (declared : Bool) (network : Http.Network) :
    (handle (limited limit) socketRoute network (letters count declared)).2.status = 413 ↔
      min limit.toNat formLimit < count := by
  rw [(letters_posted count declared).status_iff network, letters_length]
  rfl

/-- Where three bytes are allowed, four are too many and three are not. -/
theorem fourLetters_refused :
    Posted socketRoute (letters 4 false) ∧ Posted socketRoute (letters 3 false) ∧
      (handle (limited 3) socketRoute Http.Peer.drops (letters 4 false)).2.status = 413 ∧
      (handle (limited 3) socketRoute Http.Peer.drops (letters 3 false)).2.status ≠ 413 := by
  have hfour := letters_posted 4 false
  have hthree := letters_posted 3 false
  refine ⟨hfour, hthree, ?_, ?_⟩
  · exact (too_large_iff _ _ _ _ hfour).1.mpr (.inl (by decide))
  · intro hstatus
    have hlong := (too_large_iff _ _ _ _ hthree).1.mp hstatus
    exact absurd hlong (by decide)

/-- A form of exactly the length that the settings allow, and refused for its length. -/
theorem allowed_refused :
    (letters 2097153 false).body.length ≤ (limited 2097153).maxBodyBytes.toNat ∧
      (handle (limited 2097153) socketRoute Http.Peer.drops (letters 2097153 false)).2.status =
        413 := by
  constructor
  · rw [letters_length]
    decide
  · rw [letters_status]
    decide

end

end PoolWatch.Relay
