import Mathlib.Data.List.Forall2

/-!
# Traversals that can fail

A list is traversed from left to right and the first failure decides. These lemmas read a traversal
that succeeds: place by place (`getElem?_of_mapM_eq_ok`, `mapM_eq_ok_iff`), as a set
(`mem_of_mapM_eq_ok`, `mem_of_mapM_eq_some`), and under a later change of its results
(`mapM_map_result`, `mapM_eq_some_map`).
-/

set_option autoImplicit false

namespace TypeSurface

variable {ε α β γ δ : Type}

theorem bind_eq_ok_iff {first : Except ε α} {next : α → Except ε β} {result : β} :
    (first >>= next) = .ok result ↔ ∃ value, first = .ok value ∧ next value = .ok result := by
  cases first with
  | error fault => simp [bind, Except.bind]
  | ok value => simp [bind, Except.bind]

theorem map_eq_ok_iff {first : Except ε α} {change : α → β} {result : β} :
    first.map change = .ok result ↔ ∃ value, first = .ok value ∧ change value = result := by
  cases first with
  | error fault => simp [Except.map]
  | ok value => simp [Except.map]

/-- A traversal of a list with a head succeeds when the head and the tail do. -/
theorem mapM_cons_eq_ok_iff {f : α → Except ε β} {a : α} {rest : List α} {results : List β} :
    (a :: rest).mapM f = .ok results ↔
      ∃ b others, f a = .ok b ∧ rest.mapM f = .ok others ∧ results = b :: others := by
  rw [List.mapM_cons, bind_eq_ok_iff]
  constructor
  · rintro ⟨b, hb, h⟩
    obtain ⟨others, hothers, hresults⟩ := bind_eq_ok_iff.1 h
    exact ⟨b, others, hb, hothers, (Except.ok.inj hresults).symm⟩
  · rintro ⟨b, others, hb, hothers, rfl⟩
    exact ⟨b, hb, bind_eq_ok_iff.2 ⟨others, hothers, rfl⟩⟩

/-- Each place of the results holds the result of the same place of the list. -/
theorem getElem?_of_mapM_eq_ok {f : α → Except ε β} {list : List α} {results : List β}
    (h : list.mapM f = .ok results) (place : Nat) (b : β) :
    results[place]? = some b ↔ ∃ a, list[place]? = some a ∧ f a = .ok b := by
  induction list generalizing results place with
  | nil =>
      obtain rfl : results = [] := (Except.ok.inj h).symm
      simp
  | cons first rest ih =>
      obtain ⟨result, others, hfirst, hrest, rfl⟩ := mapM_cons_eq_ok_iff.1 h
      cases place with
      | zero => simp [hfirst]
      | succ place => simpa using ih hrest place

/-- There are as many results as elements. -/
theorem length_of_mapM_eq_ok {f : α → Except ε β} {list : List α} {results : List β}
    (h : list.mapM f = .ok results) : results.length = list.length := by
  induction list generalizing results with
  | nil =>
      obtain rfl : results = [] := (Except.ok.inj h).symm
      rfl
  | cons first rest ih =>
      obtain ⟨result, others, hfirst, hrest, rfl⟩ := mapM_cons_eq_ok_iff.1 h
      rw [List.length_cons, List.length_cons, ih hrest]

/-- A traversal comes to as many results as there are elements, each of them the result of the element
at its place, and to nothing else. -/
theorem mapM_eq_ok_iff {f : α → Except ε β} {list : List α} {results : List β} :
    list.mapM f = .ok results ↔ results.length = list.length ∧
      ∀ (place : Nat) (a : α) (b : β), list[place]? = some a → results[place]? = some b →
        f a = .ok b := by
  constructor
  · intro h
    refine ⟨length_of_mapM_eq_ok h, fun place a b ha hb => ?_⟩
    obtain ⟨a', ha', hresult⟩ := (getElem?_of_mapM_eq_ok h place b).1 hb
    obtain rfl : a = a' := Option.some.inj (ha.symm.trans ha')
    exact hresult
  · rintro ⟨hlength, hplaces⟩
    induction list generalizing results with
    | nil =>
        obtain rfl := List.eq_nil_of_length_eq_zero hlength
        rfl
    | cons first rest ih =>
        obtain ⟨result, others, rfl⟩ := List.exists_cons_of_length_eq_add_one hlength
        refine mapM_cons_eq_ok_iff.2 ⟨result, others, hplaces 0 _ _ rfl rfl, ?_, rfl⟩
        exact ih (Nat.succ.inj hlength) fun place a b ha hb => hplaces (place + 1) a b ha hb

/-- Every element has its result. -/
theorem exists_result_of_mapM_eq_ok {f : α → Except ε β} {list : List α} {results : List β}
    (h : list.mapM f = .ok results) {place : Nat} {a : α} (ha : list[place]? = some a) :
    ∃ b, results[place]? = some b ∧ f a = .ok b := by
  -- There is a result at every place of the list.
  have hlist : place < list.length := (List.getElem?_eq_some_iff.1 ha).1
  have hplace : place < results.length := by rw [length_of_mapM_eq_ok h]; exact hlist
  have hb := List.getElem?_eq_getElem hplace
  obtain ⟨a', ha', hresult⟩ := (getElem?_of_mapM_eq_ok h place _).1 hb
  obtain rfl : a = a' := Option.some.inj (ha.symm.trans ha')
  exact ⟨_, hb, hresult⟩

/-- The results are the results of the elements. -/
theorem mem_of_mapM_eq_ok {f : α → Except ε β} {list : List α} {results : List β}
    (h : list.mapM f = .ok results) (b : β) : b ∈ results ↔ ∃ a ∈ list, f a = .ok b := by
  simp only [List.mem_iff_getElem?, getElem?_of_mapM_eq_ok h]
  constructor
  · rintro ⟨place, a, ha, hb⟩
    exact ⟨a, ⟨place, ha⟩, hb⟩
  · rintro ⟨a, ⟨place, ha⟩, hb⟩
    exact ⟨place, a, ha, hb⟩

/-- The results are those of the elements, one by one. -/
theorem forall₂_of_mapM_eq_ok {f : α → Except ε β} {list : List α}
    {results : List β} (h : list.mapM f = .ok results) :
    List.Forall₂ (fun a b => f a = .ok b) list results := by
  induction list generalizing results with
  | nil =>
      obtain rfl : results = [] := (Except.ok.inj h).symm
      exact .nil
  | cons first rest ih =>
      obtain ⟨result, others, hfirst, hrest, rfl⟩ := mapM_cons_eq_ok_iff.1 h
      exact .cons hfirst (ih hrest)

/-- Some changed result has a property exactly when some element has the one that answers to it. -/
theorem exists_mem_map_iff_of_mapM_eq_ok {f : α → Except ε β} {change : β → γ} {list : List α}
    {results : List β} (h : list.mapM f = .ok results) {p : γ → Prop} {q : α → Prop}
    (hpq : ∀ a ∈ list, ∀ b, f a = .ok b → (p (change b) ↔ q a)) :
    (∃ c ∈ results.map change, p c) ↔ ∃ a ∈ list, q a := by
  constructor
  · rintro ⟨c, hc, hp⟩
    obtain ⟨b, hb, rfl⟩ := List.mem_map.1 hc
    obtain ⟨a, ha, hab⟩ := (mem_of_mapM_eq_ok h b).1 hb
    exact ⟨a, ha, (hpq a ha b hab).1 hp⟩
  · rintro ⟨a, ha, hq⟩
    obtain ⟨place, hplace⟩ := List.mem_iff_getElem?.1 ha
    obtain ⟨b, hb, hab⟩ := exists_result_of_mapM_eq_ok h hplace
    have hmem : change b ∈ results.map change := List.mem_map_of_mem (List.mem_of_getElem? hb)
    exact ⟨change b, hmem, (hpq a ha b hab).2 hq⟩

theorem exists_ok_of_toOption_map {computed : Except ε (List α)} {view : α → β} {views : List β}
    (h : computed.toOption.map (List.map view) = some views) :
    ∃ list, computed = .ok list ∧ list.map view = views := by
  cases computed with
  | error fault => exact absurd h (by simp [Except.toOption])
  | ok list => exact ⟨list, rfl, Option.some.inj h⟩

/-- A part of a list is traversed when the list is. -/
theorem exists_mapM_filter_eq_ok {f : α → Except ε β} {list : List α} {results : List β}
    (h : list.mapM f = .ok results) (keep : α → Bool) :
    ∃ kept, (list.filter keep).mapM f = .ok kept := by
  induction list generalizing results with
  | nil => exact ⟨[], rfl⟩
  | cons first rest ih =>
      obtain ⟨result, others, hfirst, hrest, -⟩ := mapM_cons_eq_ok_iff.1 h
      obtain ⟨kept, hkept⟩ := ih hrest
      cases hkeep : keep first with
      | true =>
          rw [List.filter_cons_of_pos hkeep]
          exact ⟨result :: kept, mapM_cons_eq_ok_iff.2 ⟨result, kept, hfirst, hkept, rfl⟩⟩
      | false =>
          rw [List.filter_cons_of_neg (by simp [hkeep])]
          exact ⟨kept, hkept⟩

theorem mapM_map_change {m : Type → Type} [Monad m] [LawfulMonad m] (f : α → m β)
    (change : β → γ) (list : List α) :
    (list.mapM fun a => change <$> f a) = List.map change <$> list.mapM f := by
  induction list with
  | nil => simp
  | cons first rest ih => simp [List.mapM_cons, ih]

/-- Results are changed one by one or all at the end. -/
theorem mapM_map_result (f : α → Except ε β) (change : β → γ) (list : List α) :
    (list.mapM fun a => (f a).map change) = (list.mapM f).map (List.map change) :=
  mapM_map_change f change list

theorem mapM_congr {f g : α → Except ε β} {list : List α} (h : ∀ a ∈ list, f a = g a) :
    list.mapM f = list.mapM g := by
  induction list with
  | nil => rfl
  | cons first rest ih =>
      rw [List.mapM_cons, List.mapM_cons, h first List.mem_cons_self,
        ih fun a ha => h a (List.mem_cons_of_mem first ha)]

/-- Where a changed element has the changed result, a list of changed elements has the changed
results. -/
theorem mapM_map_of_commutes {f : α → Except ε β} {g : γ → Except ε δ} {change : α → γ}
    {changeResult : β → δ} {list : List α}
    (h : ∀ a ∈ list, g (change a) = (f a).map changeResult) :
    (list.map change).mapM g = (list.mapM f).map (List.map changeResult) := by
  rw [List.mapM_map, ← mapM_map_result]
  exact mapM_congr h

/-- A traversal that does not fail in one way stays the same when elements change only where they fail
in this way. -/
theorem mapM_eq_of_ne_error (failure : ε) {f g : α → Except ε β} {list : List α}
    (h : ∀ a ∈ list, f a ≠ .error failure → g a = f a) (hlist : list.mapM f ≠ .error failure) :
    list.mapM g = list.mapM f := by
  induction list with
  | nil => rfl
  | cons first rest ih =>
      rw [List.mapM_cons] at hlist
      have hfirst : f first ≠ .error failure := by
        intro hfailed
        rw [hfailed] at hlist
        exact hlist rfl
      rw [List.mapM_cons, List.mapM_cons, h first List.mem_cons_self hfirst]
      cases hresult : f first with
      | error other => rfl
      | ok result =>
          rw [hresult] at hlist
          have hrest : rest.mapM f ≠ .error failure := by
            intro hfailed
            rw [hfailed] at hlist
            exact hlist rfl
          rw [ih (fun a ha => h a (List.mem_cons_of_mem first ha)) hrest]

/-- Faults are renamed one by one or all at the end. -/
theorem mapM_mapError (f : α → Except ε β) (rename : ε → δ) (list : List α) :
    (list.mapM fun a => (f a).mapError rename) = (list.mapM f).mapError rename := by
  induction list with
  | nil => rfl
  | cons first rest ih =>
      rw [List.mapM_cons, List.mapM_cons, ih]
      cases f first with
      | error fault => rfl
      | ok result => cases rest.mapM f <;> rfl

/-- Lists are traversed one after the other like one list. -/
theorem mapM_flatten (f : α → Except ε β) (lists : List (List α)) :
    (lists.mapM (List.mapM f)).map List.flatten = lists.flatten.mapM f := by
  induction lists with
  | nil => rfl
  | cons first rest ih =>
      rw [List.mapM_cons, List.flatten_cons, List.mapM_append, ← ih]
      cases first.mapM f with
      | error fault => rfl
      | ok results => cases rest.mapM (List.mapM f) <;> rfl

theorem mapM_cons_eq_some_iff {f : α → Option β} {a : α} {rest : List α} {results : List β} :
    (a :: rest).mapM f = some results ↔
      ∃ b others, f a = some b ∧ rest.mapM f = some others ∧ results = b :: others := by
  rw [List.mapM_cons]
  constructor
  · intro h
    obtain ⟨b, hb, h⟩ := Option.bind_eq_some_iff.1 h
    obtain ⟨others, hothers, h⟩ := Option.bind_eq_some_iff.1 h
    exact ⟨b, others, hb, hothers, (Option.some.inj h).symm⟩
  · rintro ⟨b, others, hb, hothers, rfl⟩
    rw [hb, hothers]
    rfl

/-- In a traversal that can come to nothing every element has its result, and nothing else is a
result. -/
theorem mem_of_mapM_eq_some {f : α → Option β} {list : List α} {results : List β}
    (h : list.mapM f = some results) :
    (∀ a ∈ list, ∃ b ∈ results, f a = some b) ∧ ∀ b ∈ results, ∃ a ∈ list, f a = some b := by
  induction list generalizing results with
  | nil =>
      obtain rfl : results = [] := (Option.some.inj h).symm
      exact ⟨fun a ha => (nomatch ha), fun b hb => (nomatch hb)⟩
  | cons first rest ih =>
      obtain ⟨result, others, hfirst, hrest, rfl⟩ := mapM_cons_eq_some_iff.1 h
      obtain ⟨hresults, hsources⟩ := ih hrest
      constructor
      · intro a ha
        rcases List.mem_cons.1 ha with rfl | ha
        · exact ⟨result, List.mem_cons_self, hfirst⟩
        · obtain ⟨b, hb, hab⟩ := hresults a ha
          exact ⟨b, List.mem_cons_of_mem result hb, hab⟩
      · intro b hb
        rcases List.mem_cons.1 hb with rfl | hb
        · exact ⟨first, List.mem_cons_self, hfirst⟩
        · obtain ⟨a, ha, hab⟩ := hsources b hb
          exact ⟨a, List.mem_cons_of_mem first ha, hab⟩

theorem forall₂_of_mapM_eq_some {f : α → Option β} {list : List α} {results : List β}
    (h : list.mapM f = some results) : List.Forall₂ (fun a b => f a = some b) list results := by
  induction list generalizing results with
  | nil =>
      obtain rfl : results = [] := (Option.some.inj h).symm
      exact .nil
  | cons first rest ih =>
      obtain ⟨result, others, hfirst, hrest, rfl⟩ := mapM_cons_eq_some_iff.1 h
      exact .cons hfirst (ih hrest)

/-- A traversal comes to the changed results when each element comes to its changed result. -/
theorem mapM_eq_some_map {f : α → Option β} {g : α → Option γ} {change : β → γ} {list : List α}
    {results : List β} (h : list.mapM f = some results)
    (hg : ∀ a ∈ list, ∀ b, f a = some b → g a = some (change b)) :
    list.mapM g = some (results.map change) := by
  induction list generalizing results with
  | nil =>
      obtain rfl : results = [] := (Option.some.inj h).symm
      rfl
  | cons first rest ih =>
      obtain ⟨result, others, hfirst, hrest, rfl⟩ := mapM_cons_eq_some_iff.1 h
      have htail := ih hrest fun a ha => hg a (List.mem_cons_of_mem first ha)
      exact mapM_cons_eq_some_iff.2
        ⟨_, _, hg first List.mem_cons_self result hfirst, htail, rfl⟩

theorem mapM_map_some (f : α → Option β) (change : β → γ) (list : List α) :
    (list.mapM fun a => (f a).map change) = (list.mapM f).map (List.map change) :=
  mapM_map_change f change list

theorem map_eq_map_some {f g : α → Option β} {list : List α} {results : List β}
    (h : list.mapM f = some results) (hg : ∀ a ∈ list, ∀ b, f a = some b → g a = some b) :
    list.map g = results.map some := by
  induction list generalizing results with
  | nil =>
      obtain rfl : results = [] := (Option.some.inj h).symm
      rfl
  | cons first rest ih =>
      obtain ⟨result, others, hfirst, hrest, rfl⟩ := mapM_cons_eq_some_iff.1 h
      rw [List.map_cons, List.map_cons, hg first List.mem_cons_self result hfirst,
        ih hrest fun a ha => hg a (List.mem_cons_of_mem first ha)]

/-- A traversal comes to something when all its elements do. -/
theorem exists_mapM_eq_some {f : α → Option β} {list : List α}
    (h : ∀ a ∈ list, ∃ b, f a = some b) : ∃ results, list.mapM f = some results := by
  induction list with
  | nil => exact ⟨[], rfl⟩
  | cons first rest ih =>
      obtain ⟨result, hfirst⟩ := h first List.mem_cons_self
      obtain ⟨others, hothers⟩ := ih fun a ha => h a (List.mem_cons_of_mem first ha)
      exact ⟨result :: others, mapM_cons_eq_some_iff.2 ⟨result, others, hfirst, hothers, rfl⟩⟩

theorem exists_mapM_eq_some_iff {f : α → Option β} {list : List α} :
    (∃ results, list.mapM f = some results) ↔ ∀ a ∈ list, ∃ b, f a = some b := by
  constructor
  · rintro ⟨results, hresults⟩ a ha
    obtain ⟨b, -, hb⟩ := (mem_of_mapM_eq_some hresults).1 a ha
    exact ⟨b, hb⟩
  · exact exists_mapM_eq_some

end TypeSurface
