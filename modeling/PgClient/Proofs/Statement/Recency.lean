/-
  PgClient.Proofs.Statement.Recency

  A bounded cache told from its history. Whatever calls were made, its keys are
  the last distinct ones in use, as many as it may hold, each with the value of
  its last use; and every value that was ever built is still there, or had to go
  for another one, or was drained.
-/
import Mathlib.Data.List.Induction
import PgClient.Proofs.Statement.Cache

namespace PgClient.Cache

/-! ## Calls and their history -/

/-- A call on a cache. A builder works on a state of its own and may fail. -/
inductive Call (κ ν ε σ : Type) where
  | getOrCreate (key : κ) (build : ExceptT ε (StateM σ) ν)
  | peek (key : κ)
  | contains (key : κ)
  | drain

/-- A call that was made, with what it gave. -/
inductive Event (κ ν ε : Type) where
  | got (key : κ) (outcome : Except ε (Lookup ν))
  | peeked (key : κ) (value : Option ν)
  | asked (key : κ) (held : Bool)
  | drained (values : List ν)

namespace Event

variable {κ ν ε : Type}

/-- The value that was built in a call. -/
def built? : Event κ ν ε → Option ν
  | got _ (.ok ⟨value, false, _⟩) => some value
  | _ => none

/-- The call was a look-up that found its key. -/
def hit : Event κ ν ε → Bool
  | got _ (.ok found) => found.hit
  | _ => false

/-- The value that had to go in a call. -/
def evicted? : Event κ ν ε → Option ν
  | got _ (.ok found) => found.evicted
  | _ => none

/-- The values that a call has taken out on purpose. -/
def released : Event κ ν ε → List ν
  | drained values => values
  | _ => []

/-- Keys and values of the successful look-ups since the last drain, read backwards. -/
def uses : List (Event κ ν ε) → List (κ × ν)
  | [] => []
  | drained _ :: _ => []
  | got key (.ok found) :: events => (key, found.value) :: uses events
  | got _ (.error _) :: events | peeked _ _ :: events | asked _ _ :: events => uses events

/-- The first `n` distinct keys of these uses. -/
def recent [DecidableEq κ] (n : Nat) (events : List (Event κ ν ε)) : List κ :=
  ((uses events).map (·.1)).eraseDups.take n

end Event

/-- A cache in use. -/
structure Usage (κ ν ε σ : Type) where
  /-- The calls so far, the latest first. -/
  events : List (Event κ ν ε)
  cache : Cache κ ν
  /-- The state that the builders work on. -/
  state : σ

namespace Usage

variable {κ ν ε σ : Type}

/-- A cache before its first call. -/
def start (n : Nat) (s : σ) : Usage κ ν ε σ := ⟨[], empty n, s⟩

/-- The cache after a look-up. Where a builder fails there is no new cache, and the old one stays
in use. -/
def got (u : Usage κ ν ε σ) (key : κ) :
    Except ε (Lookup ν × Cache κ ν) × σ → Usage κ ν ε σ
  | (.ok (found, cache), state) => ⟨.got key (.ok found) :: u.events, cache, state⟩
  | (.error e, state) => ⟨.got key (.error e) :: u.events, u.cache, state⟩

/-- The values that have been built, those that had to go, and those that were drained, read
backwards. -/
def built (u : Usage κ ν ε σ) : List ν := u.events.filterMap Event.built?

def evicted (u : Usage κ ν ε σ) : List ν := u.events.filterMap Event.evicted?

def released (u : Usage κ ν ε σ) : List ν := u.events.flatMap Event.released

theorem evicted_got (u : Usage κ ν ε σ) (key : κ) (found : Lookup ν) (cache : Cache κ ν)
    (state : σ) :
    (u.got key (.ok (found, cache), state)).evicted = found.evicted.toList ++ u.evicted := by
  rcases found with ⟨value, hit, _ | gone⟩ <;> rfl

variable [DecidableEq κ]

/-- One call. -/
def call (u : Usage κ ν ε σ) : Call κ ν ε σ → Usage κ ν ε σ
  | .getOrCreate key build => u.got key ((u.cache.getOrCreate key build).run u.state)
  | .peek key => { u with events := .peeked key (u.cache.peek? key) :: u.events }
  | .contains key => { u with events := .asked key (u.cache.contains key) :: u.events }
  | .drain => { u with events := .drained u.cache.drained :: u.events, cache := u.cache.clear }

/-- Some calls in order, on a cache that is new. -/
def after (n : Nat) (s : σ) (calls : List (Call κ ν ε σ)) : Usage κ ν ε σ :=
  calls.foldl call (start n s)

end Usage

/-! ## Distinct keys -/

section Distinct

variable {α : Type} [DecidableEq α]

theorem eraseDups_filter (p : α → Bool) (l : List α) :
    (l.filter p).eraseDups = l.eraseDups.filter p := by
  match l with
  | [] => rfl
  | a :: rest =>
    have ih := eraseDups_filter p (rest.filter fun b => !b == a)
    rw [List.filter_filter] at ih
    rw [List.eraseDups_cons, List.filter_cons, List.filter_cons, ← ih]
    by_cases hp : p a = true
    · rw [if_pos hp, if_pos hp, List.eraseDups_cons, List.filter_filter]
      simp only [Bool.and_comm]
    · rw [if_neg hp, if_neg hp]
      -- What the filter keeps is other than what it drops.
      congr 1
      refine List.filter_congr fun b _ => ?_
      by_cases hb : b = a
      · subst hb
        simp [Bool.eq_false_iff.2 hp]
      · simp [hb]
termination_by l.length
decreasing_by
  exact Nat.lt_succ_of_le (List.length_filter_le _ _)

theorem nodup_eraseDups (l : List α) : l.eraseDups.Nodup := by
  induction l with
  | nil => exact List.nodup_nil
  | cons a rest ih =>
    rw [List.eraseDups_cons, eraseDups_filter, List.nodup_cons]
    exact ⟨fun h => by simpa using (List.mem_filter.1 h).2, ih.filter _⟩

/-- What is among the first is moved to the front. -/
theorem take_filter_of_mem {a : α} {l : List α} (hl : l.Nodup) {n : Nat} (h : a ∈ l.take (n + 1)) :
    (l.filter (· ≠ a)).take n = (l.take (n + 1)).filter (· ≠ a) := by
  induction l generalizing n with
  | nil => cases h
  | cons b l ih =>
    obtain ⟨hb, hl⟩ := List.nodup_cons.1 hl
    rw [List.take_succ_cons] at h ⊢
    by_cases hab : b = a
    · subst hab
      have hnone : ∀ c ∈ l, decide (c ≠ b) = true := fun c hc =>
        decide_eq_true fun h => hb (h ▸ hc)
      rw [List.filter_cons_of_neg (by simp), List.filter_cons_of_neg (by simp),
        List.filter_eq_self.2 hnone,
        List.filter_eq_self.2 fun c hc => hnone c (List.mem_of_mem_take hc)]
    · obtain rfl | h := List.mem_cons.1 h
      · exact absurd rfl hab
      obtain ⟨m, rfl⟩ : ∃ m, n = m + 1 := by
        cases n with
        | zero => cases h
        | succ m => exact ⟨m, rfl⟩
      rw [List.filter_cons_of_pos (by simpa using hab),
        List.filter_cons_of_pos (by simpa using hab), List.take_succ_cons, ih hl h]

/-- What is not among the first pushes the last of them out. -/
theorem take_filter_of_notMem {a : α} {l : List α} {n : Nat} (h : a ∉ l.take (n + 1)) :
    (l.filter (· ≠ a)).take n = l.take n := by
  induction l generalizing n with
  | nil => rfl
  | cons b l ih =>
    rw [List.take_succ_cons, List.mem_cons, not_or] at h
    rw [List.filter_cons_of_pos (by simpa using Ne.symm h.1)]
    cases n with
    | zero => rfl
    | succ m => rw [List.take_succ_cons, List.take_succ_cons, ih h.2]

end Distinct

/-! ## Values -/

section Values

variable {κ ν : Type} {c : Cache κ ν} {key : κ} {value : ν}

/-- The values from most to least recently used. -/
def values (c : Cache κ ν) : List ν := c.entries.map (·.2)

/-- A new value is there, and one that was there may have gone for it. -/
theorem values_push_perm (key : κ) (value : ν) (hbound : c.entries.length ≤ c.capacity)
    (henabled : 0 < c.capacity) :
    (value :: c.values).Perm ((c.push key value).1.values ++ (c.push key value).2.toList) := by
  unfold values
  obtain ⟨hentries, hnone⟩ | ⟨front, last, hold, hentries, hlast⟩ :=
    push_cases key value hbound henabled
  · rw [hentries, hnone, List.map_cons, Option.toList_none, List.append_nil]
  · rw [hentries, hlast, hold, List.map_append]
    exact List.Perm.refl _

variable [DecidableEq κ]

/-- A use moves a value and loses none. -/
theorem values_touch_perm (hkeys : c.keys.Nodup) (hmem : (key, value) ∈ c.entries) :
    (c.touch key value).values.Perm c.values := by
  obtain ⟨front, back, hentries⟩ := List.append_of_mem hmem
  unfold keys at hkeys
  rw [hentries, List.map_append, List.map_cons, List.nodup_middle, List.nodup_cons] at hkeys
  -- The key is at no other place, so that the filter takes out this entry alone.
  have hothers : (front ++ back).filter (fun e => decide (e.1 ≠ key)) = front ++ back := by
    refine List.filter_eq_self.2 fun e he => decide_eq_true fun hkey => hkeys.1 ?_
    rw [← List.map_append]
    exact List.mem_map.2 ⟨e, he, hkey⟩
  rw [List.filter_append] at hothers
  unfold values touch
  rw [hentries, List.filter_append, List.filter_cons_of_neg (by simp), hothers]
  exact (List.perm_middle.symm).map _

end Values

/-! ## Steps -/

namespace Usage

variable {κ ν ε σ : Type} [DecidableEq κ] {n : Nat} {u u' : Usage κ ν ε σ}

/-- What one call can do. -/
inductive Moves (u : Usage κ ν ε σ) : Usage κ ν ε σ → Prop
  | hit {key : κ} {value : ν} (enabled : u.cache.capacity ≠ 0)
    (found : u.cache.peek? key = some value) :
    Moves u ⟨.got key (.ok ⟨value, true, none⟩) :: u.events, u.cache.touch key value, u.state⟩
  | miss {key : κ} {value : ν} {state : σ} (enabled : u.cache.capacity ≠ 0)
    (missing : u.cache.peek? key = none) :
    Moves u ⟨.got key (.ok ⟨value, false, (u.cache.push key value).2⟩) :: u.events,
      (u.cache.push key value).1, state⟩
  | unkept {key : κ} {value : ν} {state : σ} (disabled : u.cache.capacity = 0) :
    Moves u ⟨.got key (.ok ⟨value, false, none⟩) :: u.events, u.cache, state⟩
  | failed {key : κ} {e : ε} {state : σ} :
    Moves u ⟨.got key (.error e) :: u.events, u.cache, state⟩
  | peeked (key : κ) : Moves u { u with events := .peeked key (u.cache.peek? key) :: u.events }
  | asked (key : κ) : Moves u { u with events := .asked key (u.cache.contains key) :: u.events }
  | drained :
    Moves u { u with events := .drained u.cache.drained :: u.events, cache := u.cache.clear }

theorem moves_call (u : Usage κ ν ε σ) (c : Call κ ν ε σ) : Moves u (u.call c) := by
  cases c with
  | peek key => exact .peeked key
  | contains key => exact .asked key
  | drain => exact .drained
  | getOrCreate key build =>
    show Moves u (u.got key _)
    rcases hrun : (u.cache.getOrCreate key build).run u.state with ⟨r, state⟩
    obtain ⟨enabled, value, found, rfl, rfl⟩ | ⟨missing, ⟨e, -, rfl⟩ | ⟨value, -, rfl⟩⟩ :=
      getOrCreate_cases hrun
    · exact .hit enabled found
    · exact .failed
    · by_cases disabled : u.cache.capacity = 0
      · rw [if_pos disabled]
        exact .unkept disabled
      · rw [if_neg disabled]
        exact .miss disabled (missing disabled)

/-- What holds of a new cache and is kept by every call holds after any calls. -/
theorem after_invariant {motive : Usage κ ν ε σ → Prop} {s : σ} (hstart : motive (start n s))
    (hstep : ∀ {u u'}, Moves u u' → motive u → motive u') (calls : List (Call κ ν ε σ)) :
    motive (after n s calls) := by
  induction calls using List.reverseRecOn with
  | nil => exact hstart
  | append_singleton calls c ih =>
    unfold after at ih ⊢
    rw [List.foldl_concat]
    exact hstep (moves_call _ c) ih

/-! ## Keys and values -/

/-- The cache holds the keys in use last, each with the value of its last use. -/
structure Tracks (n : Nat) (u : Usage κ ν ε σ) : Prop where
  capacity_eq : u.cache.capacity = n
  keys_eq : u.cache.keys = Event.recent n u.events
  lookup_eq : ∀ e ∈ u.cache.entries, (Event.uses u.events).lookup e.1 = some e.2

theorem Tracks.nodup_keys (h : Tracks n u) : u.cache.keys.Nodup := by
  rw [h.keys_eq]
  exact (nodup_eraseDups _).sublist (List.take_sublist _ _)

theorem Tracks.length_le (h : Tracks n u) : u.cache.entries.length ≤ u.cache.capacity := by
  have hlength := congrArg List.length h.keys_eq
  unfold keys Event.recent at hlength
  rw [List.length_map, List.length_take] at hlength
  rw [hlength, h.capacity_eq]
  exact Nat.min_le_left _ _

/-- The keys after one more use. -/
theorem recent_cons {n : Nat} {uses : List (κ × ν)} {e : κ × ν} :
    ((e :: uses).map (·.1)).eraseDups.take (n + 1) =
      e.1 :: ((uses.map (·.1)).eraseDups.filter (· ≠ e.1)).take n := by
  rw [List.map_cons, List.eraseDups_cons, eraseDups_filter, List.take_succ_cons]
  congr 3
  funext b
  rw [Bool.eq_iff_iff]
  simp

theorem Tracks.of_moves (hmoves : Moves u u') (h : Tracks n u) : Tracks n u' := by
  have hcapacity := h.capacity_eq
  have hkeys := h.keys_eq
  cases hmoves with
  | failed => exact ⟨hcapacity, hkeys, h.lookup_eq⟩
  | peeked key => exact ⟨hcapacity, hkeys, h.lookup_eq⟩
  | asked key => exact ⟨hcapacity, hkeys, h.lookup_eq⟩
  | drained => exact ⟨hcapacity, by simp [clear, keys, Event.recent, Event.uses], by simp [clear]⟩
  | unkept disabled =>
    obtain rfl : n = 0 := by rw [← hcapacity, disabled]
    have hnone : u.cache.entries = [] := List.map_eq_nil_iff.1 hkeys
    exact ⟨hcapacity, hkeys, by simp [hnone]⟩
  | @hit key value enabled found =>
    obtain ⟨m, rfl⟩ := Nat.exists_eq_succ_of_ne_zero (hcapacity ▸ enabled)
    have hmem := mem_of_peek? found
    have hkey : key ∈ Event.recent (m + 1) u.events := hkeys ▸ List.mem_map_of_mem hmem
    refine ⟨hcapacity, ?_, fun e he => ?_⟩
    · unfold Event.recent at hkey hkeys ⊢
      rw [Event.uses, recent_cons, take_filter_of_mem (nodup_eraseDups _) hkey, ← hkeys, keys_touch]
    · rw [Event.uses]
      obtain rfl | he := List.mem_cons.1 he
      · exact List.lookup_cons_self
      · obtain ⟨he, hother⟩ := List.mem_filter.1 he
        rw [List.lookup_cons, beq_false_of_ne (of_decide_eq_true hother)]
        exact h.lookup_eq e he
  | @miss key value state enabled missing =>
    obtain ⟨m, rfl⟩ := Nat.exists_eq_succ_of_ne_zero (hcapacity ▸ enabled)
    have hother : ∀ e ∈ u.cache.entries, key ≠ e.1 := fun e he hkey =>
      absurd (List.lookup_eq_none_iff.1 missing e he) (by simp [hkey])
    have hkey : key ∉ Event.recent (m + 1) u.events := by
      rw [← hkeys]
      intro hmem
      obtain ⟨e, he, hkey⟩ := List.mem_map.1 hmem
      exact hother e he hkey.symm
    refine ⟨hcapacity, ?_, fun e he => ?_⟩
    · unfold Event.recent at hkey hkeys ⊢
      rw [Event.uses, recent_cons, take_filter_of_notMem hkey, keys_push, hcapacity, hkeys,
        List.take_succ_cons, List.take_take, Nat.min_eq_left (Nat.le_succ m)]
    · rw [Event.uses]
      obtain rfl | he := List.mem_cons.1 (List.mem_of_mem_take he)
      · exact List.lookup_cons_self
      · rw [List.lookup_cons, beq_false_of_ne (hother e he).symm]
        exact h.lookup_eq e he

/-! ## Where values are -/

/-- Every value that was built is in the cache, had to go, or was drained. -/
def Conserves (u : Usage κ ν ε σ) : Prop :=
  u.built.Perm (u.cache.values ++ (u.evicted ++ u.released))

theorem Conserves.of_moves (hmoves : Moves u u') (henabled : n ≠ 0) (htracks : Tracks n u)
    (h : Conserves u) : Conserves u' := by
  unfold Conserves at h ⊢
  cases hmoves with
  | failed => exact h
  | peeked key => exact h
  | asked key => exact h
  | unkept disabled => exact absurd (htracks.capacity_eq.symm.trans disabled) henabled
  | hit enabled found =>
    exact h.trans ((values_touch_perm htracks.nodup_keys (mem_of_peek? found)).symm.append_right _)
  | drained =>
    have hdrained : u.cache.values.Perm u.cache.drained := by
      unfold values Cache.drained
      exact (List.reverse_perm _).symm.map _
    show u.built.Perm (u.evicted ++ (u.cache.drained ++ u.released))
    exact (h.trans (hdrained.append_right _)).trans (List.perm_append_comm_assoc _ _ _)
  | @miss key value state enabled missing =>
    have hpush := values_push_perm key value htracks.length_le (Nat.pos_of_ne_zero enabled)
    have hgone := evicted_got u key ⟨value, false, (u.cache.push key value).2⟩
      (u.cache.push key value).1 state
    show (value :: u.built).Perm (_ ++ (evicted (u.got key (.ok (_, _), _)) ++ u.released))
    rw [hgone, List.append_assoc, ← List.append_assoc]
    exact (h.cons value).trans (hpush.append_right _)

/-! ## Caches told from their history -/

/-- What a cache that keeps `n` values has come to with its calls. -/
structure LeastRecent (n : Nat) (u : Usage κ ν ε σ) : Prop where
  /-- It holds the first `n` distinct keys in use, read backwards. -/
  keys_eq : u.cache.keys = Event.recent n u.events
  /-- Each of them is found with the value of its last use, and no builder runs. -/
  hit : ∀ key ∈ Event.recent n u.events, ∃ value,
    (Event.uses u.events).lookup key = some value ∧ u.cache.peek? key = some value ∧
      u.cache.contains key = true ∧
      ∀ {m : Type → Type} [Monad m] (build : m ν),
        u.cache.getOrCreate key build = pure (⟨value, true, none⟩, u.cache.touch key value)
  /-- Any other is built. -/
  miss : ∀ key ∉ Event.recent n u.events,
    u.cache.peek? key = none ∧ u.cache.contains key = false ∧
      ∀ {m : Type → Type} [Monad m] (build : m ν),
        u.cache.getOrCreate key build = build >>= fun value =>
          pure (⟨value, false, (u.cache.push key value).2⟩, (u.cache.push key value).1)
  /-- A builder that fails changes nothing in the cache. -/
  failed : ∀ key ∉ Event.recent n u.events,
    ∀ (build : ExceptT ε (StateM σ) ν) e state, build.run u.state = (.error e, state) →
      u.call (.getOrCreate key build) = ⟨.got key (.error e) :: u.events, u.cache, state⟩
  /-- A value that was built is in one place: in the cache, among those that had to go, or among
  those that were drained. -/
  conserved : u.built.Perm (u.cache.values ++ (u.evicted ++ u.released))
  /-- A drain takes all values, the least recently used first. -/
  drained : ∃ values, u.call .drain = ⟨.drained values :: u.events, empty n, u.state⟩ ∧
    values.map some =
      (Event.recent n u.events).reverse.map fun key => (Event.uses u.events).lookup key

/-- What a cache that keeps nothing has come to. -/
structure KeepsNothing (u : Usage κ ν ε σ) : Prop where
  entries_eq : u.cache.entries = []
  capacity_eq : u.cache.capacity = 0
  events : ∀ e ∈ u.events, e.hit = false ∧ e.evicted? = none ∧ e.released = []

theorem KeepsNothing.of_moves (hmoves : Moves u u') (h : KeepsNothing u) : KeepsNothing u' := by
  obtain ⟨hentries, hcapacity, hevents⟩ := h
  have hcons {e : Event κ ν ε} (he : e.hit = false ∧ e.evicted? = none ∧ e.released = []) :
      ∀ e' ∈ e :: u.events, e'.hit = false ∧ e'.evicted? = none ∧ e'.released = [] :=
    List.forall_mem_cons.2 ⟨he, hevents⟩
  cases hmoves with
  | hit enabled found => exact absurd hcapacity enabled
  | miss enabled missing => exact absurd hcapacity enabled
  | unkept disabled => exact ⟨hentries, hcapacity, hcons ⟨rfl, rfl, rfl⟩⟩
  | failed => exact ⟨hentries, hcapacity, hcons ⟨rfl, rfl, rfl⟩⟩
  | peeked key => exact ⟨hentries, hcapacity, hcons ⟨rfl, rfl, rfl⟩⟩
  | asked key => exact ⟨hentries, hcapacity, hcons ⟨rfl, rfl, rfl⟩⟩
  | drained =>
    refine ⟨rfl, hcapacity, hcons ⟨rfl, rfl, ?_⟩⟩
    show u.cache.drained = []
    unfold Cache.drained
    rw [hentries]
    rfl

theorem Tracks.peek?_eq (h : Tracks n u) {key : κ} (hkey : key ∈ Event.recent n u.events) :
    ∃ value, (Event.uses u.events).lookup key = some value ∧ u.cache.peek? key = some value := by
  rw [← h.keys_eq] at hkey
  cases hpeek : u.cache.peek? key with
  | some value => exact ⟨value, h.lookup_eq _ (mem_of_peek? hpeek), rfl⟩
  | none =>
    obtain ⟨e, he, rfl⟩ := List.mem_map.1 hkey
    exact absurd (List.lookup_eq_none_iff.1 hpeek e he) (by simp)

theorem Tracks.peek?_eq_none (h : Tracks n u) {key : κ} (hkey : key ∉ Event.recent n u.events) :
    u.cache.peek? key = none := by
  rw [← h.keys_eq] at hkey
  cases hpeek : u.cache.peek? key with
  | none => rfl
  | some value => exact absurd (List.mem_map_of_mem (mem_of_peek? hpeek)) hkey

theorem LeastRecent.of_tracks (henabled : n ≠ 0) (htracks : Tracks n u) (h : Conserves u) :
    LeastRecent n u := by
  have hcapacity : u.cache.capacity ≠ 0 := htracks.capacity_eq ▸ henabled
  refine ⟨htracks.keys_eq, fun key hkey => ?_, fun key hkey => ?_,
    fun key hkey build e state hbuild => ?_, h, u.cache.drained, ?_, ?_⟩
  · obtain ⟨value, hlookup, hpeek⟩ := htracks.peek?_eq hkey
    exact ⟨value, hlookup, hpeek, by simp [contains, hpeek], getOrCreate_of_peek? hcapacity hpeek⟩
  · have hpeek := htracks.peek?_eq_none hkey
    exact ⟨hpeek, by simp [contains, hpeek], getOrCreate_of_missing hcapacity hpeek⟩
  · show u.got key _ = _
    rw [getOrCreate_of_missing hcapacity (htracks.peek?_eq_none hkey), Steps.run_bind, hbuild]
    rfl
  · show Usage.mk _ u.cache.clear _ = _
    unfold clear empty
    rw [htracks.capacity_eq]
  · unfold Cache.drained
    rw [← htracks.keys_eq]
    unfold keys
    rw [← List.map_reverse, List.map_map, List.map_map]
    exact List.map_congr_left fun e he => (htracks.lookup_eq e (List.mem_reverse.1 he)).symm

/-- The history of a cache decides what it holds. A cache that may hold something keeps the values
used last and loses none; any other keeps nothing. -/
theorem history_decides (n : Nat) (s : σ) (calls : List (Call κ ν ε σ)) :
    (0 < n → LeastRecent n (after n s calls)) ∧ (n = 0 → KeepsNothing (after n s calls)) := by
  constructor
  · intro henabled
    have hne := Nat.ne_of_gt henabled
    obtain ⟨htracks, hconserves⟩ := after_invariant (motive := fun u => Tracks n u ∧ Conserves u)
      ⟨⟨rfl, List.take_nil.symm, nofun⟩, List.Perm.refl _⟩
      (fun hmoves h => ⟨h.1.of_moves hmoves, h.2.of_moves hmoves hne h.1⟩) calls
    exact .of_tracks hne htracks hconserves
  · rintro rfl
    exact after_invariant (motive := KeepsNothing) ⟨rfl, rfl, nofun⟩ KeepsNothing.of_moves calls

/-- Of two values that may stay the one used before the other goes for a third, and a builder that
fails changes nothing. -/
theorem history_decides_two :
    let u : Usage Nat String Unit Unit := after 2 ()
      [.getOrCreate 1 (pure "a"), .getOrCreate 2 (pure "b"), .getOrCreate 1 (pure "c"),
        .getOrCreate 3 (pure "d"), .getOrCreate 4 (throw ())]
    0 < 2 ∧ u.cache.entries = [(3, "d"), (1, "a")] ∧ u.evicted = ["b"] ∧ LeastRecent 2 u :=
  ⟨by decide, by decide, by decide, (history_decides 2 () _).1 (by decide)⟩

end Usage

end PgClient.Cache
