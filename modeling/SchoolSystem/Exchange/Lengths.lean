import SchoolSystem.Exchange.ShowList
import SchoolSystem.TcpSocket.Recv

/-! The calls of `Recv` whose length came from the peer, and the memory that they touch: the
buffer of 0x1000 bytes, the stream, and for the main loop what `string(buf)` reads.
-/

namespace SchoolSystem.Exchange

open TcpSocket

inductive CallSite
  | mainLoop
  | showListHeader
  | showListRows
  deriving DecidableEq, Repr

/-- The stream of a connection when `Recv` samples its size and when it reads: in between, more
may have been written.
-/
structure Sampled where
  checked : CByteStream
  atRead : CByteStream
  grown : checked.vtBuf <+: atRead.vtBuf

namespace Sampled

def nReadLen (sampled : Sampled) (nBufLen : Int32) : Int32 :=
  readLen sampled.checked.getSize nBufLen

/-- `Recv` into a buffer. To write past its end is undefined. -/
def recv (sampled : Sampled) (buf : List Byte) (nBufLen : Int32)
    : Option (List Byte × CByteStream) := do
  let (bytes, rest) ← sampled.atRead.read (sampled.nReadLen nBufLen)
  if bytes.length ≤ buf.length then
    return (recvInto buf bytes, rest)
  else
    none

/-- `buf` of the main loop, anew for each request. -/
def zeroed : List Byte := List.replicate 0x1000 0

/-- The call stores at most what the buffer holds and reads at most what the stream has; what the
main loop makes a string of ends in its buffer.
-/
structure InBounds (sampled : Sampled) (site : CallSite) (nLen : Int32) : Prop where
  stored
    : 0 ≤ (sampled.nReadLen nLen).toInt ∧ (sampled.nReadLen nLen).toInt ≤ 0x1000
  asked
    : 0 ≤ (sampled.nReadLen nLen).toInt
      ∧ (sampled.nReadLen nLen).toInt ≤ sampled.atRead.getSize.toInt
  ended
    : site = .mainLoop
      → ∃ buf rest sql,
          sampled.recv zeroed nLen = some (buf, rest) ∧ cStringAt buf 0 = some sql

/-- The length is not negative, the bytes that are there for it fit the buffer, and those of a
request leave room for a zero byte or have one.
-/
structure Fits (stream : List Byte) (site : CallSite) (nLen : Int32) : Prop where
  nonneg : 0 ≤ nLen.toInt
  inBuffer : min (stream.length : Int) nLen.toInt ≤ 0x1000
  terminated
    : site = .mainLoop
      → min (stream.length : Int) nLen.toInt < 0x1000 ∨ 0 ∈ stream.take nLen.toInt.toNat

variable {sampled : Sampled} {site : CallSite} {nLen : Int32}

theorem nReadLen_toInt (sampled : Sampled) (nLen : Int32)
    : (sampled.nReadLen nLen).toInt = min (sampled.checked.vtBuf.length : Int) nLen.toInt := by
  rw [nReadLen, readLen_toInt, CByteStream.getSize_toInt]

/-- A size check and any steps of the writer after it make such a pair, and the reader is about
to read `nReadLen` bytes.
-/
theorem exists_of_run {use later : StreamUse} {events : List StreamUse.Event}
    (waiting : use.recv = .waiting nLen) (some : use.stream.vtBuf ≠ [])
    (writer : ∀ event ∈ events, event.OfWriter)
    (ran : TransitionSystem.run StreamUse.step use (.getSize :: events) = Option.some later)
    : ∃ sampled : Sampled,
        sampled.checked = use.stream
        ∧ sampled.atRead = later.stream
        ∧ later.recv = .sized nLen (sampled.nReadLen nLen) := by
  obtain ⟨checked, stepped, ranOn⟩ := Option.bind_eq_some_iff.mp ran
  have nonzero : use.stream.getSize ≠ 0 := by
    intro zero
    have size := congrArg Int32.toInt zero
    simp only [CByteStream.getSize_toInt, Int32.toInt_zero] at size
    have positive := List.length_pos_iff.mpr some
    omega
  simp only [StreamUse.step, StreamUse.checkSize, waiting, if_neg nonzero] at stepped
  obtain rfl := Option.some.inj stepped
  obtain ⟨grown, same⟩ := StreamUse.grown_of_run writer ranOn
  exact ⟨⟨use.stream, later.stream, grown⟩, rfl, rfl, same⟩

/-- Whatever was written in between, the call gets the bytes that it sampled. -/
theorem recv_zeroed (nonneg : 0 ≤ nLen.toInt)
    (inBuffer : min (sampled.checked.vtBuf.length : Int) nLen.toInt ≤ 0x1000)
    : ∃ rest,
        sampled.recv zeroed nLen
        = some (recvInto zeroed (sampled.checked.vtBuf.take nLen.toInt.toNat), rest) := by
  obtain ⟨more, grown⟩ := sampled.grown
  have length := sampled.nReadLen_toInt nLen
  have whole : sampled.atRead.vtBuf.length = sampled.checked.vtBuf.length + more.length := by
    simp [← grown]
  have inside : 0 ≤ (sampled.nReadLen nLen).toInt
      ∧ (sampled.nReadLen nLen).toInt ≤ sampled.atRead.vtBuf.length := by omega
  have count : (sampled.nReadLen nLen).toInt.toNat
      = min nLen.toInt.toNat sampled.checked.vtBuf.length := by omega
  have bytes : sampled.atRead.vtBuf.take (sampled.nReadLen nLen).toInt.toNat
      = sampled.checked.vtBuf.take nLen.toInt.toNat := by
    rw [← grown, count, List.take_append_of_le_length (Nat.min_le_right ..), List.take_eq_take_min]
    simp
  have fits : (sampled.checked.vtBuf.take nLen.toInt.toNat).length ≤ zeroed.length := by
    simp only [List.length_take, zeroed, List.length_replicate]
    omega
  simp only [recv, CByteStream.read, if_pos inside, bytes, Option.bind_eq_bind,
    Option.bind_some, if_pos fits]
  exact ⟨_, rfl⟩

/-- A zeroed buffer has a zero byte left behind what it received, or in it. -/
theorem exists_cStringAt_zeroed {bytes : List Byte} (fits : bytes.length ≤ 0x1000)
    : (∃ sql, cStringAt (recvInto zeroed bytes) 0 = some sql)
      ↔ bytes.length < 0x1000 ∨ 0 ∈ bytes := by
  rw [exists_cStringAt_iff]
  simp only [List.drop_zero, recvInto, zeroed, List.drop_replicate, List.mem_append,
    List.mem_replicate]
  constructor
  · rintro (received | room)
    · exact Or.inr received
    · exact Or.inl (by omega)
  · rintro (room | received)
    · exact Or.inr ⟨by omega, trivial⟩
    · exact Or.inl received

/-- For every length that the peer sends, every stream and whatever is written between the size
check and the read: the call stays in the buffer and in the stream, and the main loop finds the
end of its string, exactly when the length fits.
-/
theorem inBounds_iff (sampled : Sampled) (site : CallSite) (nLen : Int32)
    : sampled.InBounds site nLen ↔ Fits sampled.checked.vtBuf site nLen := by
  have length := sampled.nReadLen_toInt nLen
  constructor
  · intro inBounds
    have stored := inBounds.stored
    have nonneg : 0 ≤ nLen.toInt := by omega
    have inBuffer : min (sampled.checked.vtBuf.length : Int) nLen.toInt ≤ 0x1000 := by omega
    refine ⟨nonneg, inBuffer, fun main => ?_⟩
    obtain ⟨buf, rest, sql, received, found⟩ := inBounds.ended main
    obtain ⟨left, same⟩ := recv_zeroed nonneg inBuffer
    obtain ⟨rfl, _⟩ := Prod.mk.inj (Option.some.inj (received.symm.trans same))
    have size : (sampled.checked.vtBuf.take nLen.toInt.toNat).length ≤ 0x1000 := by
      simp only [List.length_take]
      omega
    rcases (exists_cStringAt_zeroed size).mp ⟨sql, found⟩ with room | zero
    · left
      simp only [List.length_take] at room
      omega
    · exact Or.inr zero
  · intro fits
    obtain ⟨nonneg, inBuffer, terminated⟩ := fits
    obtain ⟨more, grown⟩ := sampled.grown
    have whole : sampled.atRead.vtBuf.length = sampled.checked.vtBuf.length + more.length := by
      simp [← grown]
    refine ⟨by omega, ?_, fun main => ?_⟩
    · rw [CByteStream.getSize_toInt]
      omega
    · obtain ⟨rest, received⟩ := recv_zeroed nonneg inBuffer
      have size : (sampled.checked.vtBuf.take nLen.toInt.toNat).length ≤ 0x1000 := by
        simp only [List.length_take]
        omega
      have ends : (sampled.checked.vtBuf.take nLen.toInt.toNat).length < 0x1000
          ∨ 0 ∈ sampled.checked.vtBuf.take nLen.toInt.toNat := by
        refine (terminated main).imp_left (fun short => ?_)
        simp only [List.length_take]
        omega
      obtain ⟨sql, found⟩ := (exists_cStringAt_zeroed size).mpr ends
      exact ⟨_, rest, sql, received, found⟩

/-- A length of -1 with one byte in the stream: `Read` is asked for -1 bytes. -/
theorem not_inBounds_negative
    : ¬ ∀ (sampled : Sampled) (site : CallSite) (nLen : Int32),
        sampled.InBounds site nLen := by
  intro inBounds
  let stream : CByteStream := ⟨[65], by decide⟩
  have stored := (inBounds ⟨stream, stream, List.prefix_rfl⟩ .mainLoop (-1)).stored
  exact absurd stored.1 (by decide)

end Sampled

end SchoolSystem.Exchange
