import Mathlib
import StumpCompiler.Sink

/-! What comes of writing to a writer that takes so many bytes and then refuses. It may take them a
few at a time, and how it refuses is left open: the bytes are written if there is room for them, and
otherwise the first ones are, as many as there is room for. -/

namespace StumpCompiler

open Writer (offer)

/-- A writer with room for some number of bytes, or for all. While there is room it takes something
of what it is offered; then it takes nothing, or answers with a fault. -/
class Writer.Limited (σ : Type) [Writer σ] where
  held : σ → List UInt8
  room : σ → ℕ∞
  takes (w : σ) (bytes : List UInt8) : bytes ≠ [] → room w ≠ 0 →
    ∃ n v, offer w bytes = (.ok n, v) ∧ 0 < n ∧ n ≤ bytes.length ∧
      held v = held w ++ bytes.take n ∧ room w = room v + n
  refuses (w : σ) (bytes : List UInt8) : room w = 0 →
    (∀ n, (offer w bytes).1 = .ok n → n = 0) ∧ held (offer w bytes).2 = held w

namespace Writer

open Limited (held room)

variable {σ : Type} [Writer σ] [Limited σ] {w v : σ} {byte : UInt8} {bytes : List UInt8} {n c : ℕ}

/-- Only a full writer takes nothing. -/
theorem refused_of_offer {result : Except IoFault ℕ} (offered : offer w (byte :: bytes) = (result, v))
    (none_taken : ∀ n, result ≠ .ok (n + 1)) : room w = 0 ∧ held v = held w := by
  have full : room w = 0 := by
    by_contra free
    obtain ⟨n, u, offered', some_taken, -⟩ := Limited.takes w (byte :: bytes) (by simp) free
    obtain ⟨rfl, -⟩ := Prod.ext_iff.mp (offered.symm.trans offered')
    obtain ⟨k, rfl⟩ := Nat.exists_eq_succ_of_ne_zero some_taken.ne'
    exact none_taken k rfl
  have kept := (Limited.refuses w (byte :: bytes) full).2
  rw [offered] at kept
  exact ⟨full, kept⟩

theorem taken_of_offer (offered : offer w (byte :: bytes) = (.ok (n + 1), v)) :
    n ≤ bytes.length ∧ held v = held w ++ byte :: bytes.take n ∧ room w = room v + (n + 1 : ℕ) := by
  have free : room w ≠ 0 := by
    intro full
    have none_taken := (Limited.refuses w (byte :: bytes) full).1 (n + 1) (by rw [offered])
    contradiction
  obtain ⟨k, u, offered', -, le, taken, less⟩ := Limited.takes w (byte :: bytes) (by simp) free
  obtain ⟨count, rfl⟩ := Prod.ext_iff.mp (offered.symm.trans offered')
  obtain rfl : n + 1 = k := Except.ok.inj count
  exact ⟨by simpa using le, taken, less⟩

/-- All bytes are written, or there is less room than they need, and then it is filled. -/
theorem writeAll_cases (w : σ) (bytes : List UInt8) :
    ((bytes.length : ℕ∞) ≤ room w ∧ (writeAll w bytes).1 = .ok () ∧
        held (writeAll w bytes).2 = held w ++ bytes) ∨
      ∃ c : ℕ, room w = c ∧ c < bytes.length ∧ (∃ fault, (writeAll w bytes).1 = .error fault) ∧
        held (writeAll w bytes).2 = held w ++ bytes.take c := by
  fun_induction writeAll w bytes with
  | case1 w => exact .inl ⟨by simp, rfl, by simp⟩
  | case2 w byte bytes fault v offered =>
    obtain ⟨full, kept⟩ := refused_of_offer offered (by simp)
    exact .inr ⟨0, full, by simp, ⟨fault, rfl⟩, by simpa using kept⟩
  | case3 w byte bytes v offered =>
    obtain ⟨full, kept⟩ := refused_of_offer offered (by simp)
    exact .inr ⟨0, full, by simp, ⟨.partialWrite, rfl⟩, by simpa using kept⟩
  | case4 w byte bytes n v offered ih =>
    obtain ⟨le, taken, less⟩ := taken_of_offer offered
    have split : (byte :: bytes).length = (bytes.drop n).length + (n + 1) := by
      rw [List.length_cons, List.length_drop]
      omega
    rw [less, split]
    rcases ih with ⟨enough, ok, all⟩ | ⟨c, left, short, failed, some⟩
    · refine .inl ⟨?_, ok, ?_⟩
      · rw [Nat.cast_add]
        exact add_le_add_left enough _
      · rw [all, taken, List.append_assoc, List.cons_append, List.take_append_drop]
    · refine .inr ⟨c + (n + 1), ?_, Nat.add_lt_add_right short _, failed, ?_⟩
      · rw [left, Nat.cast_add c]
      · have front : (byte :: bytes).take (c + (n + 1)) =
            byte :: bytes.take n ++ (bytes.drop n).take c := by
          rw [Nat.add_comm c, List.take_add, List.take_succ_cons, List.drop_succ_cons]
        rw [some, taken, front, List.append_assoc]

/-- As many of the bytes are held as there was room for. -/
theorem writeAll_limited (limit : room w = c) (bytes : List UInt8) :
    ((writeAll w bytes).1 = .ok () ↔ bytes.length ≤ c) ∧
      held (writeAll w bytes).2 = held w ++ bytes.take (min c bytes.length) := by
  rcases writeAll_cases w bytes with ⟨enough, ok, all⟩ | ⟨left, filled, short, ⟨fault, failed⟩, some⟩
  · rw [limit, Nat.cast_le] at enough
    rw [Nat.min_eq_right enough, List.take_length]
    exact ⟨iff_of_true ok enough, all⟩
  · obtain rfl : c = left := by
      rw [limit] at filled
      exact Nat.cast_inj.mp filled
    rw [Nat.min_eq_left short.le]
    refine ⟨iff_of_false ?_ (Nat.not_le.mpr short), some⟩
    rw [failed]
    nofun

theorem writeAll_unlimited (endless : room w = ⊤) (bytes : List UInt8) :
    (writeAll w bytes).1 = .ok () ∧ held (writeAll w bytes).2 = held w ++ bytes := by
  rcases writeAll_cases w bytes with ⟨-, ok, all⟩ | ⟨c, filled, -⟩
  · exact ⟨ok, all⟩
  · rw [endless] at filled
    exact absurd filled (ENat.top_ne_natCast c)

end Writer

/-! Writers with room for all bytes, for some, and for some a byte at a time. -/

/-- A list grows as it has to. -/
instance : Writer (List UInt8) where
  offer held bytes := (.ok bytes.length, held ++ bytes)

instance : Writer.Limited (List UInt8) where
  held := id
  room _ := ⊤
  takes held bytes filled _ :=
    ⟨bytes.length, held ++ bytes, rfl, List.length_pos_iff.mpr filled, le_rfl, by simp, by simp⟩
  refuses _ _ full := absurd full (by simp)

instance : Writer.Limited Sink where
  held := Sink.held
  room sink := (sink.capacity - sink.held.length : ℕ)
  takes sink bytes filled free := by
    have some_room : sink.capacity - sink.held.length ≠ 0 := by exact_mod_cast free
    have some_bytes : 0 < bytes.length := List.length_pos_iff.mpr filled
    have less : sink.capacity - sink.held.length =
        sink.capacity - (sink.held ++ bytes.take (sink.capacity - sink.held.length)).length +
          min (sink.capacity - sink.held.length) bytes.length := by
      rw [List.length_append, List.length_take]
      omega
    refine ⟨_, _, rfl, by omega, Nat.min_le_right _ _, ?_, ?_⟩
    · rw [List.take_eq_take_min]
    · exact_mod_cast less
  refuses sink bytes full := by
    have no_room : sink.capacity - sink.held.length = 0 := by exact_mod_cast full
    simp [offer, no_room]

/-- Takes one byte at a time, and has a fault when it is full. -/
structure Trickle where
  left : ℕ
  held : List UInt8

instance : Writer Trickle where
  offer w bytes := match w.left with
    | 0 => (.error .noSpace, w)
    | left + 1 => (.ok (bytes.take 1).length, ⟨left, w.held ++ bytes.take 1⟩)

instance : Writer.Limited Trickle where
  held := Trickle.held
  room w := w.left
  takes w bytes filled free := by
    obtain ⟨byte, bytes, rfl⟩ := List.exists_cons_of_ne_nil filled
    obtain ⟨_ | left, held⟩ := w
    · simp at free
    · exact ⟨1, ⟨left, held ++ [byte]⟩, rfl, by simp, by simp, rfl, rfl⟩
  refuses w bytes full := by
    obtain ⟨_ | left, held⟩ := w
    · exact ⟨nofun, rfl⟩
    · simp at full

end StumpCompiler
