import Mathlib.Data.List.Infix
import PoolWatch.Relay.Handle

/-!
# Which paths are served as they stand

In a literal path every character stands for itself. A relay on a literal path takes posts to this
path and nothing else. On any other path there is no such relay: the path is no route, or its route
takes further paths.
-/

namespace PoolWatch

namespace Route

/-- No braces, and no segment that looks like a name of the older kind. -/
structure Literal (path : String) : Prop where
  noBrace : ∀ c ∈ path.toList, c ≠ '{' ∧ c ≠ '}'
  noOldName : ¬ ['/', ':'] <:+: path.toList ∧ ¬ ['/', '*'] <:+: path.toList

/-- The route of a path takes this path and no other. -/
def Exact (path : String) : Prop :=
  ∃ route, ofPath? path = some route ∧ ∀ p, accepts route p = true ↔ p = path.toList

/-! ## Names of the older kind -/

theorem isOldName_iff (cs : List Char) :
    isOldName (cs.takeWhile (· != '/')) = true ↔ [':'] <+: cs ∨ ['*'] <+: cs := by
  cases cs with
  | nil => simp [isOldName]
  | cons c cs =>
    by_cases hc : c = '/'
    · subst hc
      simp [isOldName]
    · simp [isOldName, hc, @eq_comm _ c]

theorem any_isOldName_splitFrom (begun cs : List Char) :
    (Text.splitFrom (· == '/') begun cs).any isOldName = true ↔
      isOldName (begun.reverse ++ cs.takeWhile (· != '/')) = true ∨
        ['/', ':'] <:+: cs ∨ ['/', '*'] <:+: cs := by
  induction cs generalizing begun with
  | nil => simp [Text.splitFrom]
  | cons c cs ih =>
    by_cases hc : c = '/'
    · subst hc
      simp only [Text.splitFrom, beq_self_eq_true, if_true, List.any_cons, Bool.or_eq_true, ih,
        List.reverse_nil, List.nil_append, isOldName_iff, List.infix_cons_iff,
        List.cons_prefix_cons, true_and, bne_self_eq_false, Bool.false_eq_true, not_false_eq_true,
        List.takeWhile_cons_of_neg, List.append_nil]
      tauto
    · have hslash : ('/' : Char) ≠ c := Ne.symm hc
      simp [Text.splitFrom, hc, ih, List.infix_cons_iff, List.cons_prefix_cons, hslash]

theorem any_isOldName_split {cs : List Char} (h : cs.head? = some '/') :
    (Text.split (· == '/') cs).any isOldName = true ↔ ['/', ':'] <:+: cs ∨ ['/', '*'] <:+: cs := by
  obtain ⟨rest, rfl⟩ := List.head?_eq_some_iff.mp h
  rw [Text.split, any_isOldName_splitFrom]
  simp [isOldName]

/-! ## Routes of characters only -/

theorem accepts_chars (cs p : List Char) : accepts (cs.map .char) p = true ↔ p = cs := by
  induction cs generalizing p with
  | nil => simp [accepts]
  | cons c cs ih =>
    cases p with
    | nil => simp [accepts]
    | cons d p => simp [accepts, ih, @eq_comm _ c]

theorem unescape_noBrace {cs : List Char} (h : ∀ c ∈ cs, c ≠ '{' ∧ c ≠ '}') :
    unescape cs = cs.map (·, false) := by
  fun_induction unescape cs with
  | case1 cs ih => simp at h
  | case2 cs ih => simp at h
  | case3 c cs hopen hclose ih =>
    rw [ih fun d hd => h d (List.mem_cons_of_mem c hd)]
    rfl
  | case4 => rfl

theorem itemsFrom?_char {c : Char} {doubled : Bool} (h : doubled = false → c ≠ '{' ∧ c ≠ '}')
    (before : Char) (cs : List (Char × Bool)) :
    itemsFrom? (.outside before) ((c, doubled) :: cs) =
      (itemsFrom? (.outside c) cs).map (.char c :: ·) := by
  cases cs <;> cases doubled <;> simp_all [itemsFrom?]

theorem itemsFrom?_noBrace {cs : List Char} (h : ∀ c ∈ cs, c ≠ '{' ∧ c ≠ '}') (before : Char) :
    itemsFrom? (.outside before) (cs.map (·, false)) = some (cs.map .char) := by
  induction cs generalizing before with
  | nil => rfl
  | cons c cs ih =>
    obtain ⟨hc, hrest⟩ := List.forall_mem_cons.mp h
    rw [List.map_cons, itemsFrom?_char fun _ => hc, ih hrest, Option.map_some, List.map_cons]

theorem Literal.ofPath? {path : String} (h : Literal path)
    (hrooted : path.toList.head? = some '/') :
    ofPath? path = some (path.toList.map .char) := by
  have hold : (Text.split (· == '/') path.toList).any isOldName = false := by
    rw [← Bool.not_eq_true, any_isOldName_split hrooted]
    exact not_or.mpr h.noOldName
  unfold Route.ofPath?
  simp only [hrooted, ne_eq, not_true_eq_false, if_false, hold, Bool.false_eq_true]
  rw [unescape_noBrace h.noBrace, itemsFrom?_noBrace h.noBrace]

/-! ## Routes with a name -/

/-- Some item stands for more than one text. -/
def Open (route : Route) : Prop := .segment ∈ route ∨ .rest ∈ route

theorem Open.cons {route : Route} (h : Open route) (item : RouteItem) : Open (item :: route) :=
  h.imp (List.mem_cons_of_mem item) (List.mem_cons_of_mem item)

theorem Open.longer {route : Route} (h : Open route) {p : List Char}
    (hp : accepts route p = true) : ∃ q, accepts route q = true ∧ p.length < q.length := by
  induction route generalizing p with
  | nil => simp [Open] at h
  | cons item items ih =>
    cases item with
    | char c =>
      cases p with
      | nil => simp [accepts] at hp
      | cons d p =>
        simp only [accepts, Bool.and_eq_true, beq_iff_eq] at hp
        obtain ⟨rfl, hp⟩ := hp
        obtain ⟨q, hq, hlonger⟩ := ih (by simpa [Open] using h) hp
        exact ⟨c :: q, by simp [accepts, hq], by simpa using hlonger⟩
    | segment =>
      simp only [accepts, Bool.and_eq_true] at hp
      exact ⟨'x' :: p, by simp [accepts, hp.2], by simp⟩
    | rest => exact ⟨'x' :: p, by simp [accepts], by simp⟩

theorem open_of_name {star empty : Bool} {before : Char} {cs : List (Char × Bool)} {route : Route}
    (h : itemsFrom? (.name star empty before) cs = some route) : Open route := by
  induction cs generalizing empty with
  | nil => simp [itemsFrom?] at h
  | cons x cs ih =>
    obtain ⟨c, doubled⟩ := x
    rw [itemsFrom?] at h
    split at h
    · split at h
      · split at h
        · simp at h
        · obtain rfl := Option.some.inj h
          exact .inr (by simp)
      · split at h
        · obtain ⟨items, -, rfl⟩ := Option.map_eq_some_iff.mp h
          exact .inl (by simp)
        · simp at h
    split at h
    · simp at h
    · exact ih h

theorem open_of_brace {c : Char} (h : c = '{' ∨ c = '}') {before : Char}
    {cs : List (Char × Bool)} {route : Route}
    (hroute : itemsFrom? (.outside before) ((c, false) :: cs) = some route) : Open route := by
  rcases h with rfl | rfl
  · match cs, hroute with
    | (first, _) :: cs, hroute =>
      simp only [itemsFrom?, Bool.false_eq_true, if_false, Char.reduceEq, if_true] at hroute
      split at hroute
      · simp at hroute
      · exact open_of_name hroute
  · cases cs <;> simp [itemsFrom?] at hroute

/-- A route is open, or it is the characters of its path, and all braces of the path are doubled. -/
theorem itemsFrom?_cases {before : Char} {cs : List (Char × Bool)} {route : Route}
    (h : itemsFrom? (.outside before) cs = some route) :
    Open route ∨ (route = (cs.map Prod.fst).map .char ∧
      ∀ c, (c, false) ∈ cs → c ≠ '{' ∧ c ≠ '}') := by
  induction cs generalizing before route with
  | nil =>
    obtain rfl : [] = route := by simpa [itemsFrom?] using h
    exact .inr ⟨rfl, by simp⟩
  | cons x cs ih =>
    obtain ⟨c, doubled⟩ := x
    by_cases hplain : doubled = false → c ≠ '{' ∧ c ≠ '}'
    · rw [itemsFrom?_char hplain] at h
      obtain ⟨route, hroute, rfl⟩ := Option.map_eq_some_iff.mp h
      rcases ih hroute with hopen | ⟨rfl, hrest⟩
      · exact .inl (hopen.cons _)
      · refine .inr ⟨rfl, fun d hd => ?_⟩
        rcases List.mem_cons.mp hd with hd | hd
        · obtain ⟨rfl, rfl⟩ := Prod.mk.inj hd
          exact hplain rfl
        · exact hrest d hd
    · obtain ⟨rfl, hbrace⟩ := Classical.not_imp.mp hplain
      exact .inl (open_of_brace (by tauto) h)

theorem length_unescape_le (cs : List Char) : (unescape cs).length ≤ cs.length := by
  fun_induction unescape cs with
  | case1 cs ih => simp; omega
  | case2 cs ih => simp; omega
  | case3 c cs _ _ ih => simpa using ih
  | case4 => simp

theorem unescape_undoubled {cs : List Char} (h : cs.length ≤ (unescape cs).length) :
    unescape cs = cs.map (·, false) := by
  fun_induction unescape cs with
  | case1 cs ih =>
    have := length_unescape_le cs
    simp only [List.length_cons] at h
    omega
  | case2 cs ih =>
    have := length_unescape_le cs
    simp only [List.length_cons] at h
    omega
  | case3 c cs _ _ ih => rw [ih (by simpa using h), List.map_cons]
  | case4 => rfl

theorem Exact.literal {path : String} (h : Exact path) : Literal path := by
  obtain ⟨route, hroute, haccepts⟩ := h
  unfold Route.ofPath? at hroute
  dsimp only at hroute
  split at hroute
  · simp at hroute
  rename_i hrooted
  split at hroute
  · simp at hroute
  rename_i hold
  rw [any_isOldName_split (by simpa using hrooted), not_or] at hold
  rcases itemsFrom?_cases hroute with hopen | ⟨rfl, hplain⟩
  · -- a second path would be taken
    obtain ⟨q, hq, hlonger⟩ := hopen.longer ((haccepts path.toList).mpr rfl)
    rw [(haccepts q).mp hq] at hlonger
    exact absurd hlonger (lt_irrefl _)
  · have hsame : (unescape path.toList).map Prod.fst = path.toList :=
      (haccepts _).mp ((accepts_chars _ _).mpr rfl)
    have hlength := congrArg List.length hsame
    rw [List.length_map] at hlength
    rw [unescape_undoubled hlength.ge] at hplain
    exact ⟨fun c hc => hplain c (List.mem_map_of_mem hc), hold⟩

theorem exact_iff {path : String} (hrooted : path.toList.head? = some '/') :
    Exact path ↔ Literal path :=
  ⟨Exact.literal, fun h => ⟨_, h.ofPath? hrooted, accepts_chars path.toList⟩⟩

end Route

namespace Relay

/-- A request that the limit on declared lengths lets through. -/
def Fits (s : RelaySettings) (r : Incoming) : Prop :=
  r.declared = true → r.body.length ≤ s.maxBodyBytes.toNat

/-- Posts to the path are taken, and whatever is asked of another path is not found. -/
structure ServesOnly (s : RelaySettings) (route : Route) : Prop where
  taken : ∀ network r, Fits s r → r.method = "POST" → pathOf r.target = s.path.toList →
    handle s route network r = accept s network r
  notFound : ∀ network r, Fits s r → pathOf r.target ≠ s.path.toList →
    handle s route network r = ([], ⟨404, none, none, ""⟩)

theorem serves_exact {s : RelaySettings} {route : Route}
    (h : ∀ p, route.accepts p = true ↔ p = s.path.toList) : ServesOnly s route where
  taken := by
    intro network r hfits hpost hpath
    have hroute := (h (pathOf r.target)).mpr hpath
    have hshort : ¬ (r.declared && decide (s.maxBodyBytes.toNat < r.body.length)) = true := by
      simpa [Fits] using hfits
    simp [handle, dispatch, hroute, hpost, hshort]
  notFound := by
    intro network r hfits hpath
    have hroute : route.accepts (pathOf r.target) = false := by
      rw [← Bool.not_eq_true, h]
      exact hpath
    have hshort : ¬ (r.declared && decide (s.maxBodyBytes.toNat < r.body.length)) = true := by
      simpa [Fits] using hfits
    simp [handle, dispatch, hroute, hshort]

end Relay

theorem Settings.rooted_of_usable {s : Settings} (h : s.defect? = none) :
    s.relay.path.toList.head? = some '/' := by
  by_contra hrelative
  simp only [Settings.defect?, ne_eq, hrelative, not_false_eq_true, if_true] at h
  split_ifs at h

namespace Relay

/-- Usable settings have a route that takes their path only if the path is literal, and then the
relay serves this path and no other. -/
theorem usable_served (s : Settings) (h : s.defect? = none) :
    (Route.Exact s.relay.path ↔ Route.Literal s.relay.path) ∧
      (Route.Literal s.relay.path →
        ∃ route, Route.ofPath? s.relay.path = some route ∧ ServesOnly s.relay route) := by
  have hrooted := Settings.rooted_of_usable h
  refine ⟨Route.exact_iff hrooted, fun hliteral => ⟨_, hliteral.ofPath? hrooted, ?_⟩⟩
  exact serves_exact (Route.accepts_chars s.relay.path.toList)

/-- The defaults with another path. -/
def onPath (path : String) : Settings := { Settings.default with relay.path := path }

/-- Marks of names stand for themselves behind other characters. -/
theorem marksInside_served :
    (onPath "/v1:socket*").defect? = none ∧
      ∃ route, Route.ofPath? "/v1:socket*" = some route ∧
        ServesOnly (onPath "/v1:socket*").relay route := by
  have husable : (onPath "/v1:socket*").defect? = none := by decide
  have hliteral : Route.Literal "/v1:socket*" :=
    ⟨by simp, by decide⟩
  exact ⟨husable, (usable_served _ husable).2 hliteral⟩

/-- Usable settings whose path is no route, and others whose route takes a path that is not
theirs. -/
theorem braces_unserved :
    ((onPath "/\x7b").defect? = none ∧ Route.ofPath? "/\x7b" = none) ∧
      (onPath "/\x7bany\x7d").defect? = none ∧
        ∃ route, Route.ofPath? "/\x7bany\x7d" = some route ∧
          (handle (onPath "/\x7bany\x7d").relay route Http.Peer.unreachable
            ⟨"POST", "/a", none, [], true⟩).2.status = 415 :=
  ⟨by decide, by decide, [.char '/', .segment], by decide, by decide⟩

end Relay

end PoolWatch
