/-
  PgClient.Proofs.Statement.Cache

  What a look-up makes of a cache, what a use and a new entry do to its entries,
  and that the name of a statement gives its number away.
-/
import Mathlib.Data.List.Nodup
import PgClient.Proofs.Steps
import PgClient.Statement.Basic

namespace PgClient

open Steps

/-! ## Entries -/

namespace Cache

variable {κ ν : Type} {c : Cache κ ν} {key : κ} {value : ν}

/-- A new entry goes first. It takes the place of the last one where the cache was full. -/
theorem push_cases (key : κ) (value : ν) (hbound : c.entries.length ≤ c.capacity)
    (henabled : 0 < c.capacity) :
    ((c.push key value).1.entries = (key, value) :: c.entries ∧ (c.push key value).2 = none) ∨
      ∃ front last, c.entries = front ++ [last] ∧
        (c.push key value).1.entries = (key, value) :: front ∧
        (c.push key value).2 = some last.2 := by
  unfold push
  by_cases full : c.entries.length = c.capacity
  · obtain ⟨n, hn⟩ : ∃ n, c.capacity = n + 1 := ⟨c.capacity - 1, by omega⟩
    -- A full cache has a last entry, since it may hold at least one.
    have hne : c.entries ≠ [] := by
      intro hempty
      rw [hempty] at full
      rw [← full] at henabled
      exact absurd henabled (Nat.lt_irrefl 0)
    obtain ⟨front, last, hentries⟩ : ∃ front last, c.entries = front ++ [last] :=
      ⟨_, _, (List.dropLast_append_getLast hne).symm⟩
    have hfront : front.length = n := by
      have := congrArg List.length hentries
      rw [List.length_append, List.length_singleton] at this
      omega
    refine .inr ⟨front, last, hentries, ?_, ?_⟩
    · dsimp only
      rw [hn, List.take_succ_cons, hentries, List.take_left' hfront]
    · dsimp only
      rw [hn, List.drop_succ_cons, hentries, List.drop_left' hfront]
      rfl
  · have hgrown : ((key, value) :: c.entries).length ≤ c.capacity := by
      rw [List.length_cons]
      omega
    refine .inl ⟨List.take_of_length_le hgrown, ?_⟩
    dsimp only
    rw [List.drop_of_length_le hgrown]
    rfl

theorem keys_push : (c.push key value).1.keys = (key :: c.keys).take c.capacity :=
  List.map_take

variable [DecidableEq κ]

theorem keys_touch : (c.touch key value).keys = key :: c.keys.filter (· ≠ key) := by
  unfold touch keys
  rw [List.map_cons, List.filter_map]
  rfl

/-- What is found in a cache is one of its entries. -/
theorem mem_of_peek? (h : c.peek? key = some value) : (key, value) ∈ c.entries := by
  obtain ⟨l₁, l₂, hentries, -⟩ := List.lookup_eq_some_iff.1 h
  rw [hentries]
  exact List.mem_append_right _ List.mem_cons_self

/-- The entries after a use are the entries before it. -/
theorem mem_touch {e : κ × ν} (hmem : (key, value) ∈ c.entries)
    (h : e ∈ (c.touch key value).entries) : e ∈ c.entries := by
  rcases List.mem_cons.1 h with rfl | h
  · exact hmem
  · exact (List.mem_filter.1 h).1

theorem length_touch_le (hmem : (key, value) ∈ c.entries) :
    (c.touch key value).entries.length ≤ c.entries.length := by
  have hless : (c.entries.filter fun e => e.1 ≠ key).length < c.entries.length :=
    List.length_filter_lt_length_iff_exists.2 ⟨(key, value), hmem, by simp⟩
  unfold touch
  rw [List.length_cons]
  omega

/-- A use does not put anything into a cache twice. -/
theorem nodup_touch {β : Type} (f : ν → β) (hmem : (key, value) ∈ c.entries)
    (h : (c.entries.map fun e => f e.2).Nodup) :
    ((c.touch key value).entries.map fun e => f e.2).Nodup := by
  unfold touch
  rw [List.map_cons, List.nodup_cons]
  refine ⟨fun hagain => ?_, h.sublist (List.filter_sublist.map _)⟩
  obtain ⟨e, he, hsame⟩ := List.mem_map.1 hagain
  obtain ⟨he, hkey⟩ := List.mem_filter.1 he
  have : e = (key, value) := List.inj_on_of_nodup_map h he hmem hsame
  rw [this] at hkey
  simp at hkey

/-- Where no key is there twice, a use loses nothing. -/
theorem mem_touch_iff {e : κ × ν} (hkeys : c.keys.Nodup) (hmem : (key, value) ∈ c.entries) :
    e ∈ (c.touch key value).entries ↔ e ∈ c.entries := by
  refine ⟨mem_touch hmem, fun he => ?_⟩
  by_cases hkey : e.1 = key
  · obtain rfl : e = (key, value) := List.inj_on_of_nodup_map hkeys he hmem hkey
    exact List.mem_cons_self
  · exact List.mem_cons_of_mem _ (List.mem_filter.2 ⟨he, decide_eq_true hkey⟩)

theorem nodup_keys_touch (hkeys : c.keys.Nodup) : (c.touch key value).keys.Nodup := by
  rw [keys_touch, List.nodup_cons]
  exact ⟨fun hmem => of_decide_eq_true (List.mem_filter.1 hmem).2 rfl, hkeys.filter _⟩

theorem nodup_keys_push (hkeys : c.keys.Nodup) (hmissing : c.peek? key = none) :
    (c.push key value).1.keys.Nodup := by
  have hgrown : (((key, value) :: c.entries).map (·.1)).Nodup := by
    rw [List.map_cons, List.nodup_cons]
    refine ⟨fun hmem => ?_, hkeys⟩
    obtain ⟨e, he, hkey⟩ := List.mem_map.1 hmem
    have hother := List.lookup_eq_none_iff.1 hmissing e he
    rw [hkey, bne_self_eq_false] at hother
    cases hother
  exact hgrown.sublist ((List.take_sublist _ _).map _)

/-! ## Look-ups -/

section Lookup

variable {m : Type → Type} [Monad m]

/-- A cache that keeps nothing builds every time. -/
theorem getOrCreate_of_disabled (hdisabled : c.capacity = 0) (key : κ) (build : m ν) :
    c.getOrCreate key build = build >>= fun value => pure (⟨value, false, none⟩, c) := by
  unfold getOrCreate
  rw [if_pos hdisabled]

/-- What is there is not built. -/
theorem getOrCreate_of_peek? (henabled : c.capacity ≠ 0) (hfound : c.peek? key = some value)
    (build : m ν) :
    c.getOrCreate key build = pure (⟨value, true, none⟩, c.touch key value) := by
  unfold getOrCreate
  rw [if_neg henabled, hfound]

/-- What is not there is built and becomes the first entry. -/
theorem getOrCreate_of_missing (henabled : c.capacity ≠ 0) (hmissing : c.peek? key = none)
    (build : m ν) :
    c.getOrCreate key build = build >>= fun value =>
      pure (⟨value, false, (c.push key value).2⟩, (c.push key value).1) := by
  unfold getOrCreate
  rw [if_neg henabled, hmissing]

end Lookup

/-- A look-up either finds the value, or builds it and keeps it where anything is kept. -/
theorem getOrCreate_cases {ε σ : Type} {build : ExceptT ε (StateM σ) ν} {s s' : σ}
    {r : Except ε (Lookup ν × Cache κ ν)} (h : (c.getOrCreate key build).run s = (r, s')) :
    (c.capacity ≠ 0 ∧ ∃ value, c.peek? key = some value ∧ s' = s ∧
        r = .ok (⟨value, true, none⟩, c.touch key value)) ∨
      ((c.capacity ≠ 0 → c.peek? key = none) ∧
        ((∃ e, build.run s = (.error e, s') ∧ r = .error e) ∨
          ∃ value, build.run s = (.ok value, s') ∧
            r = .ok (if c.capacity = 0 then (⟨value, false, none⟩, c)
              else (⟨value, false, (c.push key value).2⟩, (c.push key value).1)))) := by
  by_cases disabled : c.capacity = 0
  · rw [getOrCreate_of_disabled disabled] at h
    refine .inr ⟨fun henabled => absurd disabled henabled, ?_⟩
    obtain ⟨e, hbuild, rfl⟩ | ⟨value, t, hbuild, h⟩ := bind_cases h
    · exact .inl ⟨e, hbuild, rfl⟩
    · obtain ⟨rfl, rfl⟩ := Prod.mk.inj h
      exact .inr ⟨value, hbuild, by rw [if_pos disabled]⟩
  · cases hpeek : c.peek? key with
    | some value =>
      rw [getOrCreate_of_peek? disabled hpeek] at h
      obtain ⟨rfl, rfl⟩ := Prod.mk.inj h
      exact .inl ⟨disabled, value, rfl, rfl, rfl⟩
    | none =>
      rw [getOrCreate_of_missing disabled hpeek] at h
      refine .inr ⟨fun _ => rfl, ?_⟩
      obtain ⟨e, hbuild, rfl⟩ | ⟨value, t, hbuild, h⟩ := bind_cases h
      · exact .inl ⟨e, hbuild, rfl⟩
      · obtain ⟨rfl, rfl⟩ := Prod.mk.inj h
        exact .inr ⟨value, hbuild, by rw [if_neg disabled]⟩

end Cache

/-! ## Names -/

namespace Statement

/-- In one process no two numbers make the same name. -/
theorem nameOf_injective {process : String} {m n : Nat}
    (h : nameOf process m = nameOf process n) : m = n := by
  unfold nameOf at h
  -- The numbers are the ends of the names, and digits read back as the number.
  have hrepr : m.repr = n.repr := (String.append_right_inj _).1 h
  have hdigits : Nat.toDigits 10 m = Nat.toDigits 10 n := String.ofList_injective hrepr
  rw [← Nat.ofDigitChars_ten_toDigits (n := m), hdigits, Nat.ofDigitChars_ten_toDigits]

theorem nameOf_ne_empty (process : String) (n : Nat) : nameOf process n ≠ "" := by
  intro h
  have hlength := congrArg String.length h
  unfold nameOf at hlength
  rw [String.length_append, String.length_append, String.length_append] at hlength
  -- The prefix alone makes a name longer than the empty one.
  have hprefix : namePrefix.length = 24 := rfl
  have hempty : "".length = 0 := rfl
  omega

end Statement

end PgClient
