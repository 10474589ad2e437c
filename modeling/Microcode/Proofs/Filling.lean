import Microcode.Store

namespace Microcode

/-!
Pushes into a store, past its limit and on.

What a store holds is determined by the words pushed so far: the first of them, as many as there
is room for.  A single push keeps this, whether it succeeds or fails, and so every run of pushes
does.
-/

namespace Store

/-- How pushes go one after the other, and the store behind them.  They go on behind a push that
fails. -/
def attempts (store : Store) : List Word → List (Except StoreFull Unit) × Store
  | [] => ([], store)
  | word :: words =>
      let first := store.attempt word
      let behind := first.2.attempts words
      (first.1 :: behind.1, behind.2)

/-- How the push goes that has a number of pushes before it. -/
def verdict (limit before : Nat) : Except StoreFull Unit :=
  if before < limit then .ok () else .error ⟨limit⟩

/-- A store with a limit behind pushes of some words. -/
structure Filled (limit : Nat) (pushed : List Word) (store : Store) : Prop where
  entries : store.toList = pushed.take (min limit pushed.length)
  limit_eq : store.limit = limit
  size_eq : store.size = store.toList.length
  isEmpty_iff : store.isEmpty ↔ store.toList = []
  get?_eq : ∀ index, store.get? index = store.toList[index]?

variable {limit : Nat} {pushed : List Word} {store : Store}

/-- The views of a store agree with its list of words. -/
theorem filled_of_entries (entries : store.toList = pushed.take (min limit pushed.length))
    (limit_eq : store.limit = limit) : Filled limit pushed store where
  entries := entries
  limit_eq := limit_eq
  size_eq := rfl
  isEmpty_iff := by
    rw [isEmpty, toList, Array.isEmpty_iff, Array.toList_eq_nil_iff]
  get?_eq _ := Array.getElem?_toList.symm

theorem filled_empty (limit : Nat) : Filled limit [] (empty limit) :=
  filled_of_entries List.take_nil.symm rfl

theorem attempts_snd_eq_foldl_offer (store : Store) (words : List Word) :
    (store.attempts words).2 = words.foldl offer store := by
  induction words generalizing store with
  | nil => rfl
  | cons word words ih =>
      rw [List.foldl_cons, offer, ← ih]
      rfl

namespace Filled

theorem size_words (filled : Filled limit pushed store) :
    store.words.size = min limit pushed.length := by
  have entries := congrArg List.length filled.entries
  rw [List.length_take, Nat.min_assoc, Nat.min_self] at entries
  exact entries

/-- A push appends its word while there is room, and afterwards leaves the store as it is. -/
theorem attempt (filled : Filled limit pushed store) (word : Word) :
    (store.attempt word).1 = verdict limit pushed.length ∧
      Filled limit (pushed ++ [word]) (store.attempt word).2 := by
  have size := filled.size_words
  have limits := filled.limit_eq
  have entries := filled.entries
  rw [← List.take_eq_take_min] at entries
  by_cases early : pushed.length < limit
  · have room : store.words.size < store.limit := by omega
    rw [attempt_of_room _ _ room, verdict, if_pos early]
    refine ⟨rfl, filled_of_entries ?_ limits⟩
    rw [toList_append, entries, List.take_of_length_le (Nat.le_of_lt early),
      ← List.take_eq_take_min, List.take_of_length_le]
    rw [List.length_append]
    exact early
  · have late := Nat.le_of_not_lt early
    have full : store.limit ≤ store.words.size := by omega
    rw [attempt_of_full _ _ full, verdict, if_neg early, limits]
    refine ⟨rfl, filled_of_entries ?_ limits⟩
    rw [entries, ← List.take_eq_take_min, List.take_append_of_le_length late]

/-- The pushes of a run go as their numbers demand, and the words of the run join those that were
pushed before. -/
theorem attempts (filled : Filled limit pushed store) (words : List Word) :
    (store.attempts words).1 = (List.range' pushed.length words.length).map (verdict limit) ∧
      Filled limit (pushed ++ words) (store.attempts words).2 := by
  induction words generalizing pushed store with
  | nil =>
      rw [List.append_nil]
      exact ⟨rfl, filled⟩
  | cons word words ih =>
      rcases filled.attempt word with ⟨here, next⟩
      rcases ih next with ⟨later, last⟩
      rw [List.length_append] at later
      rw [List.append_assoc] at last
      refine ⟨?_, last⟩
      rw [List.length_cons, List.range'_succ, List.map_cons, ← here]
      exact congrArg _ later

/-- Behind a push that fails there are only pushes that fail. -/
theorem attempts_of_error (filled : Filled limit pushed store) {word : Word} {full : StoreFull}
    (failed : (store.attempt word).1 = .error full) :
    full = ⟨limit⟩ ∧ (store.attempt word).2 = store ∧
      ∀ later, ∀ result ∈ (store.attempts later).1, result = .error ⟨limit⟩ := by
  have late : ¬ pushed.length < limit := by
    intro early
    rw [(filled.attempt word).1, verdict, if_pos early] at failed
    cases failed
  have size := filled.size_words
  have limits := filled.limit_eq
  have reached : store.limit ≤ store.words.size := by omega
  rw [attempt_of_full _ _ reached] at failed ⊢
  cases failed
  refine ⟨by rw [limits], rfl, ?_⟩
  intro later result member
  rw [(filled.attempts later).1] at member
  rcases List.mem_map.mp member with ⟨before, listed, rfl⟩
  have behind := (List.mem_range'_1.mp listed).1
  rw [verdict, if_neg (by omega)]

end Filled

/-- Whatever is pushed into an empty store, it holds the first words up to its limit, and just the
pushes beyond the limit fail, each with the limit as its cause.  A push that fails changes nothing
and is followed by none that succeeds. -/
theorem pushes_fill_to_limit (limit : Nat) (words : List Word) :
    Filled limit words ((empty limit).attempts words).2 ∧
    ((empty limit).attempts words).1 =
      (List.range words.length).map (fun index =>
        if index < limit then .ok () else .error ⟨limit⟩) ∧
    ((empty limit).attempts words).2 = words.foldl offer (empty limit) ∧
    (∀ word full, (((empty limit).attempts words).2.attempt word).1 = .error full →
      full = ⟨limit⟩ ∧
      (((empty limit).attempts words).2.attempt word).2 = ((empty limit).attempts words).2 ∧
      ∀ later, ∀ result ∈ (((empty limit).attempts words).2.attempts later).1,
        result = .error ⟨limit⟩) := by
  rcases (filled_empty limit).attempts words with ⟨results, filled⟩
  refine ⟨filled, ?_, attempts_snd_eq_foldl_offer _ _, fun _ _ => filled.attempts_of_error⟩
  rw [results, List.range_eq_range']
  rfl

/-- A word with no bit set. -/
def clearWord : Word where
  address := 0
  bits := .replicate wordBits false

/-- One word three times, where there is room for it twice. -/
def overfull : List Word :=
  [clearWord, clearWord, clearWord]

theorem pushes_fill_to_limit_overfull :
    ((empty 2).attempts overfull).1 = [.ok (), .ok (), .error ⟨2⟩] ∧
    ((empty 2).attempts overfull).2.toList = [clearWord, clearWord] ∧
    (((empty 2).attempts overfull).2.attempt clearWord).1 = .error ⟨2⟩ ∧
    (((empty 2).attempts overfull).2.attempt clearWord).2 = ((empty 2).attempts overfull).2 ∧
    ∀ later, ∀ result ∈ (((empty 2).attempts overfull).2.attempts later).1,
      result = .error ⟨2⟩ := by
  rcases pushes_fill_to_limit 2 overfull with ⟨filled, results, -, behind⟩
  have failed : (((empty 2).attempts overfull).2.attempt clearWord).1 = .error ⟨2⟩ := rfl
  rcases behind clearWord ⟨2⟩ failed with ⟨-, kept, later⟩
  exact ⟨results, filled.entries, failed, kept, later⟩

end Store

end Microcode
