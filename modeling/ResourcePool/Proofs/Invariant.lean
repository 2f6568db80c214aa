import ResourcePool.Proofs.Ledger

/-!
The invariant of a pool: what holds in every state of every run, in the middle of operations and
during calls to the surroundings too.
-/

namespace ResourcePool

attribute [-simp] Multiset.singleton_add

structure Sound (b : Books) : Prop where
  matching : Matching b.pool b.assets
  standings : Standings b.pool b.ties
  fresh : Fresh b
  duty : MayClose b.assets → b.pool.closed = true ∨ b.torn = true
  balanced : Balanced b

theorem Move.sound {gone : Prop} {b c : Books} (move : Move gone b c) (before : Sound b) : Sound c where
  matching := move.matching before.matching
  standings := move.standings before.standings
  fresh := move.fresh before.matching before.fresh
  duty := move.duty before.duty
  balanced := move.balanced before.standings before.fresh before.duty before.balanced

theorem slot_ofConfig (c : Config) (s : Nat) : (Pool.ofConfig c).slot s = {} := by
  unfold Pool.slot Pool.ofConfig
  rw [List.getD_eq_getElem?_getD, List.getElem?_replicate]
  split <;> rfl

theorem Books.start_sound (c : Config) : Sound (.start c) := by
  have nobody (w : Nat) : (Books.start c).pool.waiters[w]? = none := by
    simp [Books.start, Pool.ofConfig]
  have empty : (Books.start c).stock = 0 := by
    simp [Books.stock, Books.start, Pool.holdings, Pool.parcels, Pool.ofConfig]
  refine ⟨?_, ?_, fun n s inside => ?_, fun mayClose => ?_, ?_, ?_⟩
  · exact ⟨.inl ⟨by simp [Books.start], rfl⟩, fun unmatched => absurd rfl unmatched.line⟩
  · refine ⟨.nil, fun w => ?_, fun w x found => ?_, fun w _ => ?_⟩
    · simp [Books.start, Pool.ofConfig]
    · simp [nobody] at found
    · simp [Books.ties, Books.start, History.fates, History.sights]
  · simp [Books.start] at inside
  · simp [MayClose, Books.start] at mayClose
  · rw [empty]
    refine ⟨List.length_replicate, Nat.zero_le _, by simp, by simp, fun s filled => ?_,
      fun s _ => slot_ofConfig c s, fun s shut => ?_⟩
    · exact absurd filled (Nat.not_lt_zero s)
    · rw [show (Books.start c).pool = .ofConfig c from rfl, slot_ofConfig] at shut
      simp at shut
  · rw [empty]
    exact ⟨rfl, rfl, by simp⟩

namespace Run

variable {σ : Type} {e : Environment σ} {past : List (Machine σ)} {m : Machine σ}

/-- The invariant holds in every state of a run. -/
theorem sound (run : Run e past m) : Sound (m.books 0 (history e past)) :=
  run.keeps Books.start_sound Move.sound

theorem places (run : Run e past m) :
    Places m.pool m.torn (m.books 0 (history e past)).stock :=
  run.sound.balanced.places

theorem accounts (run : Run e past m) :
    Accounts (m.books 0 (history e past)).stock m.made (history e past) :=
  run.sound.balanced.accounts

end Run
end ResourcePool
