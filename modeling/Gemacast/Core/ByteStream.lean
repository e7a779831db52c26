import Mathlib.Tactic.Common

/-!
# Byte streams that arrive in time

A blocking socket hands out its bytes as they arrive. Between two bytes a read can fail,
most often because nothing came before its timeout. Reading an exact number of bytes
retries a read that was interrupted and gives up at every other failure; what it had taken
by then is lost.
-/

namespace Gemacast.Core

/-- Why a read fails. -/
inductive IoErrorKind
  /-- The read timeout of the socket passed. -/
  | timedOut
  /-- The read timeout of the socket passed, on a platform that reports it this way. -/
  | wouldBlock
  /-- A signal came first. -/
  | interrupted
  /-- The stream ended. -/
  | unexpectedEof
  /-- The peer reset the connection. -/
  | connectionReset
  /-- The bytes make no sense. -/
  | invalidData
  /-- Anything else. -/
  | other
  deriving DecidableEq

/-- What the reads of a socket come to, one after the other, and when. A read that returns
several bytes is as many arrivals. -/
inductive SocketEvent
  /-- The next byte of the stream. -/
  | byte (value : UInt8) (now : ℕ)
  /-- A read fails. -/
  | failed (kind : IoErrorKind) (now : ℕ)
  /-- The stream ends. -/
  | closed (now : ℕ)

/-- The bytes that arrive. -/
def bytesOf : List SocketEvent → List UInt8
  | [] => []
  | .byte value _ :: rest => value :: bytesOf rest
  | .failed _ _ :: rest => bytesOf rest
  | .closed _ :: rest => bytesOf rest

/-- The result of reading an exact number of bytes: what was read, when the read was over
and what has yet to arrive. -/
inductive ReadExact
  /-- The read still waits. -/
  | blocked
  /-- All bytes were read. -/
  | done (bytes : List UInt8) (now : ℕ) (rest : List SocketEvent)
  /-- The read failed. -/
  | failed (kind : IoErrorKind) (now : ℕ) (rest : List SocketEvent)

/-- The result once a byte was taken before. -/
def ReadExact.prepend (value : UInt8) : ReadExact → ReadExact
  | .blocked => .blocked
  | .done bytes now rest => .done (value :: bytes) now rest
  | .failed kind now rest => .failed kind now rest

/-- Read `n` bytes, starting at `now`. -/
def readExact : ℕ → ℕ → List SocketEvent → ReadExact
  | 0, now, arrivals => .done [] now arrivals
  | _ + 1, _, [] => .blocked
  | n + 1, _, .byte value now :: rest => (readExact n now rest).prepend value
  | n + 1, _, .failed .interrupted now :: rest => readExact (n + 1) now rest
  | _ + 1, _, .failed kind now :: rest => .failed kind now rest
  | _ + 1, _, .closed now :: rest => .failed .unexpectedEof now rest

@[simp] theorem readExact_zero (now : ℕ) (arrivals : List SocketEvent) :
    readExact 0 now arrivals = .done [] now arrivals := by
  unfold readExact
  rfl

section ReadExact

variable {n now now' : ℕ} {value : UInt8} {bytes : List UInt8} {kind : IoErrorKind}
  {arrivals rest : List SocketEvent} {r : ReadExact}

/-- A finished read, a byte earlier. -/
theorem prepend_eq_done : r.prepend value = .done bytes now rest ↔
    ∃ tail, r = .done tail now rest ∧ bytes = value :: tail := by
  cases r with
  | blocked => simp [ReadExact.prepend]
  | done tail now' rest' =>
    simp only [ReadExact.prepend, ReadExact.done.injEq]
    constructor
    · rintro ⟨rfl, rfl, rfl⟩
      exact ⟨tail, ⟨rfl, rfl, rfl⟩, rfl⟩
    · rintro ⟨tail', ⟨rfl, rfl, rfl⟩, rfl⟩
      exact ⟨rfl, rfl, rfl⟩
  | failed kind now' rest' => simp [ReadExact.prepend]

/-- A failed read, a byte earlier. -/
@[simp] theorem prepend_eq_failed :
    r.prepend value = .failed kind now rest ↔ r = .failed kind now rest := by
  cases r <;> simp [ReadExact.prepend]

/-- A waiting read, a byte earlier. -/
@[simp] theorem prepend_eq_blocked : r.prepend value = .blocked ↔ r = .blocked := by
  cases r <;> simp [ReadExact.prepend]

/-- A finished read has taken its bytes off the stream, and nothing else. -/
theorem bytesOf_of_done (h : readExact n now arrivals = .done bytes now' rest) :
    bytesOf arrivals = bytes ++ bytesOf rest ∧ bytes.length = n ∧
      rest.length + n ≤ arrivals.length := by
  fun_induction readExact n now arrivals generalizing bytes with
  | case1 now arrivals =>
    cases h
    exact ⟨rfl, rfl, Nat.le_refl _⟩
  | case2 => cases h
  | case3 n now value now rest ih =>
    obtain ⟨tail, hr, rfl⟩ := prepend_eq_done.mp h
    obtain ⟨hbytes, hlen, hrest⟩ := ih hr
    refine ⟨?_, ?_, ?_⟩
    · rw [bytesOf, hbytes, List.cons_append]
    · rw [List.length_cons, hlen]
    · rw [List.length_cons]
      omega
  | case4 n now now' rest ih =>
    obtain ⟨hbytes, hlen, hrest⟩ := ih h
    refine ⟨hbytes, hlen, ?_⟩
    rw [List.length_cons]
    omega
  | case5 => cases h
  | case6 => cases h

/-- A failed read has lost the bytes it had taken, fewer than it was to read. -/
theorem bytesOf_of_failed (h : readExact n now arrivals = .failed kind now' rest) :
    (∃ lost, bytesOf arrivals = lost ++ bytesOf rest ∧ lost.length < n) ∧
      rest.length < arrivals.length := by
  fun_induction readExact n now arrivals with
  | case1 => cases h
  | case2 => cases h
  | case3 n now value now rest ih =>
    obtain ⟨⟨lost, hbytes, hlen⟩, hrest⟩ := ih (prepend_eq_failed.mp h)
    refine ⟨⟨value :: lost, ?_, ?_⟩, ?_⟩
    · rw [bytesOf, hbytes, List.cons_append]
    · rw [List.length_cons]
      omega
    · rw [List.length_cons]
      omega
  | case4 n now now' rest ih =>
    obtain ⟨hlost, hrest⟩ := ih h
    refine ⟨hlost, ?_⟩
    rw [List.length_cons]
    omega
  | case5 n now kind now' rest =>
    cases h
    exact ⟨⟨[], rfl, Nat.succ_pos n⟩, Nat.lt_succ_self _⟩
  | case6 n now now' rest =>
    cases h
    exact ⟨⟨[], rfl, Nat.succ_pos n⟩, Nat.lt_succ_self _⟩

/-- A waiting read is still short of bytes. -/
theorem bytesOf_of_blocked (h : readExact n now arrivals = .blocked) :
    (bytesOf arrivals).length < n := by
  fun_induction readExact n now arrivals with
  | case1 => cases h
  | case2 n now => exact Nat.succ_pos n
  | case3 n now value now rest ih =>
    have hlen := ih (prepend_eq_blocked.mp h)
    rw [bytesOf, List.length_cons]
    omega
  | case4 n now now' rest ih => exact ih h
  | case5 => cases h
  | case6 => cases h

end ReadExact

/-- The bytes of the stream arrive one after the other, and then it waits, ends or fails. -/
inductive Streams : List UInt8 → List SocketEvent → Prop
  | ended {ending : List SocketEvent} (h : bytesOf ending = []) : Streams [] ending
  | byte {bytes : List UInt8} {arrivals : List SocketEvent} (value : UInt8) (now : ℕ)
      (h : Streams bytes arrivals) : Streams (value :: bytes) (.byte value now :: arrivals)

namespace Streams

variable {bytes : List UInt8} {arrivals : List SocketEvent}

theorem bytesOf_eq (h : Streams bytes arrivals) : bytesOf arrivals = bytes := by
  induction h with
  | ended h => exact h
  | byte value now _ ih => rw [bytesOf, ih]

/-- As many bytes as there are can be read, and the others stay. -/
theorem exists_done (h : Streams bytes arrivals) {n : ℕ} (hle : n ≤ bytes.length) (now : ℕ) :
    ∃ now' rest, readExact n now arrivals = .done (bytes.take n) now' rest ∧
      Streams (bytes.drop n) rest := by
  induction n generalizing bytes arrivals now with
  | zero => exact ⟨now, arrivals, readExact_zero now arrivals, h⟩
  | succ n ih =>
    cases h with
    | ended => exact absurd hle (Nat.not_succ_le_zero n)
    | byte value now₁ h =>
      obtain ⟨now', rest, hread, hrest⟩ := ih h (Nat.le_of_succ_le_succ hle) now₁
      refine ⟨now', rest, ?_, hrest⟩
      rw [readExact, hread]
      rfl

/-- The first bytes can be read by their number. -/
theorem exists_done_append {value : List UInt8} (h : Streams (value ++ bytes) arrivals)
    (now : ℕ) : ∃ now' rest, readExact value.length now arrivals = .done value now' rest ∧
      Streams bytes rest := by
  have hle : value.length ≤ (value ++ bytes).length := by
    rw [List.length_append]
    exact Nat.le_add_right _ _
  obtain ⟨now', rest, hread, hrest⟩ := h.exists_done hle now
  rw [List.take_left] at hread
  rw [List.drop_left] at hrest
  exact ⟨now', rest, hread, hrest⟩

/-- What a finished read has read are the first bytes. -/
theorem of_done (h : Streams bytes arrivals) {n now now' : ℕ} {value : List UInt8}
    {rest : List SocketEvent} (hread : readExact n now arrivals = .done value now' rest) :
    n ≤ bytes.length ∧ value = bytes.take n ∧ Streams (bytes.drop n) rest := by
  obtain ⟨hbytes, hlen, -⟩ := bytesOf_of_done hread
  have hle : n ≤ bytes.length := by
    rw [← h.bytesOf_eq, hbytes, List.length_append, hlen]
    exact Nat.le_add_right _ _
  obtain ⟨_, _, hread', hrest⟩ := h.exists_done hle now
  obtain ⟨rfl, -, rfl⟩ := ReadExact.done.inj (hread.symm.trans hread')
  exact ⟨hle, rfl, hrest⟩

end Streams

end Gemacast.Core
