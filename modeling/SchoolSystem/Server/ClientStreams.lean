import SchoolSystem.Server.Statements

/-! Each client's stream on the running server is a stream with one reader and one writer: the
receive thread writes to it, and the calls of `Recv` are those of the main loop.
-/

namespace SchoolSystem.Server

open TcpSocket
open TransitionSystem (run trace Along Reaches)

variable {Addr : Type} [DecidableEq Addr]

/-- The client in whose `Recv` the main loop is. -/
def MainLoop.receiving : MainLoop Addr → Option Addr
  | .recvLen turn | .readLen turn _ | .recvBuf turn _ | .readBuf turn _ => some turn.key
  | .select | .found _ | .addTask _ _ | .adding => none

/-- Where the main loop is in a `Recv` of this client, with `size` bytes in the stream: as many as
it is about to read are there.
-/
inductive InRecv (addr : Addr) (size : Nat) : MainLoop Addr → RecvCall → Prop
  | outside {mainLoop : MainLoop Addr} (outside : mainLoop.receiving ≠ some addr)
    : InRecv addr size mainLoop .none
  | recvLen (turn : Turns.Turn Addr) (own : turn.key = addr)
    : InRecv addr size (.recvLen turn) (.waiting 4)
  | readLen (turn : Turns.Turn Addr) (nReadLen : Nat) (sampled : Int32) (own : turn.key = addr)
      (same : sampled.toInt = nReadLen) (covered : nReadLen ≤ size)
    : InRecv addr size (.readLen turn nReadLen) (.sized 4 sampled)
  | recvBuf (turn : Turns.Turn Addr) (nLen : Int32) (own : turn.key = addr)
    : InRecv addr size (.recvBuf turn nLen) (.waiting nLen)
  | readBuf (turn : Turns.Turn Addr) (nReadLen : Int) (nLen sampled : Int32)
      (own : turn.key = addr) (same : sampled.toInt = nReadLen) (covered : nReadLen ≤ size)
    : InRecv addr size (.readBuf turn nReadLen) (.sized nLen sampled)

section Positions

variable {addr : Addr} {size : Nat} {mainLoop : MainLoop Addr} {call : RecvCall}

omit [DecidableEq Addr] in
theorem InRecv.mono {more : Nat} (inRecv : InRecv addr size mainLoop call) (grown : size ≤ more)
    : InRecv addr more mainLoop call := by
  cases inRecv with
  | outside outside => exact .outside outside
  | recvLen turn own => exact .recvLen turn own
  | readLen turn nReadLen sampled own same covered =>
      exact .readLen turn nReadLen sampled own same (covered.trans grown)
  | recvBuf turn nLen own => exact .recvBuf turn nLen own
  | readBuf turn nReadLen nLen sampled own same covered =>
      exact .readBuf turn nReadLen nLen sampled own same
        (covered.trans (by exact_mod_cast grown))

omit [DecidableEq Addr] in
/-- Between two calls of `Recv` the main loop may go on. -/
theorem InRecv.away {later : MainLoop Addr} (before : mainLoop.receiving ≠ some addr)
    (after : later.receiving ≠ some addr) (inRecv : InRecv addr size mainLoop call)
    : InRecv addr size later call := by
  cases inRecv with
  | outside => exact .outside after
  | recvLen turn own | readLen turn _ _ own | recvBuf turn _ own | readBuf turn _ _ _ own =>
      exact absurd (congrArg some own) before

end Positions

namespace Service

/-- A client's stream on the server, as a stream with its reader and its writer. -/
structure InUse (addr : Addr) (service : Service Addr Int) (use : StreamUse) : Prop where
  stream : use.stream.vtBuf = (service.conn addr).byteStream
  writing : use.writing = service.recvThread.unwritten addr
  recv : InRecv addr (service.conn addr).byteStream.length service.mainLoop use.recv

/-- There is room for a byte that is pushed to this client's stream. -/
def HasSpace (addr : Addr) (service : Service Addr Int) (event : Event Addr Int) : Prop :=
  event = .recvThread → (service.conn addr).byteStream.length < maxSize

instance (addr : Addr) (service : Service Addr Int) (event : Event Addr Int)
    : Decidable (HasSpace addr service event) :=
  inferInstanceAs (Decidable (_ → _))

/-- What a step of the server does to a client's stream is a run of the stream, and its calls of
`Recv` return what the server reads.
-/
def Uses (addr : Addr) (service : Service Addr Int) (event : Event Addr Int)
    (next : Service Addr Int) (use : StreamUse)
    : Prop :=
  ∃ later,
    Reaches StreamUse.step use later
    ∧ InUse addr next later
    ∧ later.returned.flatMap Prod.snd
      = use.returned.flatMap Prod.snd ++ service.bytesRead addr event

variable {service next : Service Addr Int} {addr : Addr} {use : StreamUse}
  {event : Event Addr Int}

theorem inUse_new (processors : Nat) (addr : Addr) : InUse addr (new processors) .start where
  stream := rfl
  writing := rfl
  recv := .outside nofun

-----------------------------------------------------------------------------------------
-- The other threads
-----------------------------------------------------------------------------------------

/-- A step that leaves the stream alone. -/
theorem InUse.still (used : InUse addr service use)
    (mainLoop
      : ∀ {size call},
          InRecv addr size service.mainLoop call → InRecv addr size next.mainLoop call)
    (writing : next.recvThread.unwritten addr = service.recvThread.unwritten addr)
    (stream : (next.conn addr).byteStream = (service.conn addr).byteStream)
    (none : service.bytesRead addr event = [])
    : Uses addr service event next use := by
  refine ⟨use, .refl, ⟨?_, ?_, ?_⟩, by rw [none, List.append_nil]⟩
  · rw [stream]
    exact used.stream
  · rw [writing]
    exact used.writing
  · rw [stream]
    exact mainLoop used.recv

-----------------------------------------------------------------------------------------
-- The writer
-----------------------------------------------------------------------------------------

/-- The receive thread begins to write a packet. -/
theorem InUse.write (used : InUse addr service use) {data : List Byte} {drained : Bool}
    (position : service.recvThread = .write addr data drained)
    : Uses addr service .recvThread { service with recvThread := .push addr data drained }
        use := by
  have free : use.writing = [] := by
    rw [used.writing, position]
    rfl
  refine ⟨_, .single (StreamUse.Move.write data free).step, ⟨used.stream, ?_, used.recv⟩, ?_⟩
  · exact (if_pos rfl).symm
  · exact (List.append_nil _).symm

/-- The receive thread pushes a byte. -/
theorem InUse.push (used : InUse addr service use) {byte : Byte} {rest : List Byte} {drained : Bool}
    (position : service.recvThread = .push addr (byte :: rest) drained)
    (space : (service.conn addr).byteStream.length < maxSize)
    : Uses addr service .recvThread
        { service.push addr [byte] with recvThread := .push addr rest drained } use := by
  have writing : use.writing = byte :: rest := by
    rw [used.writing, position]
    exact if_pos rfl
  have room : use.stream.vtBuf.length < maxSize := used.stream ▸ space
  have pushed : use.stream.pushBack byte
      = some ⟨use.stream.vtBuf ++ [byte], by rw [List.length_append]; exact room⟩ :=
    dif_pos room
  have stream := push_byteStream service addr [byte]
  refine
    ⟨_, .single (StreamUse.Move.push byte rest _ writing pushed).step, ⟨?_, ?_, ?_⟩,
      (List.append_nil _).symm⟩
  · exact (congrArg (· ++ [byte]) used.stream).trans stream.symm
  · exact (if_pos rfl).symm
  · change InRecv addr ((service.push addr [byte]).conn addr).byteStream.length _ _
    rw [stream, List.length_append]
    exact used.recv.mono (Nat.le_add_right _ _)

theorem InUse.recvThread (used : InUse addr service use)
    (space : (service.conn addr).byteStream.length < maxSize)
    (stepped : service.recvThreadStep = some next)
    : Uses addr service .recvThread next use := by
  cases recvThreadStep_move stepped with
  | write other data drained position =>
      rcases eq_or_ne other addr with rfl | different
      · exact used.write position
      · refine used.still id ?_ rfl rfl
        rw [position]
        exact if_neg different
  | push other byte rest drained position =>
      rcases eq_or_ne other addr with rfl | different
      · exact used.push position space
      · refine used.still id ?_ ?_ rfl
        · rw [position]
          exact (if_neg different).trans (if_neg different).symm
        · exact congrArg Conn.byteStream (push_ne (Ne.symm different) [byte])
  | written other drained counted position stream =>
      refine used.still id ?_ (setConn_byteStream stream addr) rfl
      rw [position]
      exact (ite_self []).symm
  | store other drained position =>
      let stored : Conn Int := { service.conn other with status := .hasData }
      have stream : stored.byteStream = (service.conn other).byteStream := rfl
      refine used.still id ?_ (setConn_byteStream stream addr) rfl
      rw [position]
      rfl
  | unlock other drained moved position stream =>
      refine used.still id ?_ (setConn_byteStream stream addr) rfl
      rw [position]
      rfl
  | lock _ _ position | noData _ _ position | someData _ _ position | next _ _ position
  | drained _ position =>
      refine used.still id ?_ rfl rfl
      rw [position]
      rfl

-----------------------------------------------------------------------------------------
-- The reader
-----------------------------------------------------------------------------------------

theorem unwritten_of_free {position : RecvThread Addr}
    (free : position.writing ≠ some addr)
    : position.unwritten addr = [] := by
  cases position with
  | push other => exact if_neg (fun same => free (congrArg some same))
  | recvfrom | write | lock | test | store | unlock | drain => rfl

/-- The main loop looks at the size of a stream that is not empty. -/
theorem InUse.sample (used : InUse addr service use) {nBufLen : Int32} {mainLoop : MainLoop Addr}
    (waiting : use.recv = .waiting nBufLen) (some : (service.conn addr).byteStream ≠ [])
    (sampled
      : InRecv addr (service.conn addr).byteStream.length mainLoop
          (.sized nBufLen (readLen use.stream.getSize nBufLen)))
    (none : service.bytesRead addr .mainLoop = [])
    : Uses addr service .mainLoop { service with mainLoop } use := by
  have bytes : use.stream.vtBuf ≠ [] := used.stream ▸ some
  refine
    ⟨_, .single (StreamUse.Move.size nBufLen waiting bytes).step,
      ⟨used.stream, used.writing, sampled⟩, ?_⟩
  rw [none, List.append_nil]

/-- `Read` gets as many bytes as were sampled. -/
theorem InUse.read (used : InUse addr service use) {nBufLen nReadLen : Int32}
    (sized : use.recv = .sized nBufLen nReadLen)
    (free : service.recvThread.writing ≠ some addr) (inside : 0 ≤ nReadLen.toInt)
    (covered : nReadLen.toInt ≤ (service.conn addr).byteStream.length)
    : ∃ stream,
        use.step .read
          = some
              {
                use with
                stream
                recv := .none
                returned :=
                  use.returned
                  ++ [(nBufLen, (service.conn addr).byteStream.take nReadLen.toInt.toNat)]
              }
        ∧ stream.vtBuf = (service.conn addr).byteStream.drop nReadLen.toInt.toNat := by
  have written : use.writing = [] := by rw [used.writing, unwritten_of_free free]
  rw [← used.stream] at covered ⊢
  have taken : use.stream.read nReadLen = some (_, _) := if_pos ⟨inside, covered⟩
  exact ⟨_, (StreamUse.Move.read nBufLen nReadLen _ _ sized written taken).step, rfl⟩

/-- A read of another client's stream. -/
theorem read_elsewhere {other : Addr} {nReadLen : Nat}
    (reading : service.mainLoop.reading = some (other, nReadLen)) (different : other ≠ addr)
    : service.bytesRead addr .mainLoop = []
      ∧ ((service.read other nReadLen).conn addr).byteStream = (service.conn addr).byteStream := by
  have none : service.bytesRead addr .mainLoop = [] := by
    simp only [bytesRead, reading]
    exact if_neg different
  have split := take_read reading addr
  rw [none] at split
  exact ⟨none, split⟩

/-- `Select` returns the client, whose first `Recv` is called. -/
theorem InUse.found (used : InUse addr service use) (position : service.mainLoop = .found addr)
    : Uses addr service .mainLoop
        {
          service.setConn addr { service.conn addr with status := .receiving } with
          mainLoop := .recvLen ⟨service.selected, addr⟩
          selected := service.selected + 1
        }
        use := by
  have recv := used.recv
  rw [position] at recv
  have free : use.recv = .none := by
    generalize use.recv = call at recv
    cases recv with
    | outside => rfl
  have stream := setConn_conn service addr { service.conn addr with status := .receiving }
  refine
    ⟨_, .single (StreamUse.Move.call 4 free).step, ⟨?_, used.writing, .recvLen _ rfl⟩, ?_⟩
  · exact used.stream.trans (congrArg Conn.byteStream stream).symm
  · rw [bytesRead, position]
    exact (List.append_nil _).symm

/-- The length is read, and the second `Recv` asks for as many bytes as it says. -/
theorem InUse.readLen (used : InUse addr service use) {turn : Turns.Turn Addr} {nReadLen : Nat}
    {sampled nLen : Int32} (own : turn.key = addr)
    (position : service.mainLoop = .readLen turn nReadLen)
    (free : service.recvThread.writing ≠ some addr) (sized : use.recv = .sized 4 sampled)
    (same : sampled.toInt = nReadLen)
    (covered : nReadLen ≤ (service.conn addr).byteStream.length)
    : Uses addr service .mainLoop
        { service.read turn.key nReadLen with mainLoop := .recvBuf turn nLen } use := by
  subst own
  obtain ⟨stream, read, rest⟩ := used.read sized free (by omega) (by omega)
  have bytes : sampled.toInt.toNat = nReadLen := by omega
  rw [bytes] at read rest
  refine
    ⟨_, (Reaches.single read).trans (.single (StreamUse.Move.call nLen rfl).step),
      ⟨?_, used.writing, .recvBuf turn nLen rfl⟩, ?_⟩
  · exact rest.trans (read_byteStream service turn.key nReadLen).symm
  · simp [bytesRead, position, MainLoop.reading]

/-- The body is read. -/
theorem InUse.readBuf (used : InUse addr service use) {turn : Turns.Turn Addr} {nReadLen : Int}
    {nBufLen sampled : Int32} {sql : List Byte} (own : turn.key = addr)
    (position : service.mainLoop = .readBuf turn nReadLen)
    (free : service.recvThread.writing ≠ some addr) (sized : use.recv = .sized nBufLen sampled)
    (same : sampled.toInt = nReadLen) (inside : 0 ≤ nReadLen)
    (covered : nReadLen ≤ (service.conn addr).byteStream.length)
    : Uses addr service .mainLoop
        { service.read turn.key nReadLen.toNat with mainLoop := .addTask turn sql } use := by
  subst own same
  obtain ⟨stream, read, rest⟩ := used.read sized free inside covered
  refine ⟨_, .single read, ⟨?_, used.writing, .outside nofun⟩, ?_⟩
  · exact rest.trans (read_byteStream service turn.key sampled.toInt.toNat).symm
  · simp [bytesRead, position, MainLoop.reading]

theorem InUse.mainLoop (used : InUse addr service use) (stepped : service.mainLoopStep = some next)
    : Uses addr service .mainLoop next use := by
  have recv := used.recv
  have away : none ≠ some addr := (Option.some_ne_none addr).symm
  cases mainLoopStep_move stepped with
  | take other position =>
      rcases eq_or_ne other addr with rfl | different
      · exact used.found position
      · let stored : Conn Int := { service.conn other with status := .receiving }
        have stream : stored.byteStream = (service.conn other).byteStream := rfl
        refine used.still (InRecv.away (by rw [position]; exact away) ?_) rfl
          (setConn_byteStream stream addr) (by rw [bytesRead, position]; rfl)
        exact fun same => different (Option.some.inj same)
  | recvLen turn nReadLen position some size =>
      have none : service.bytesRead addr .mainLoop = [] := by rw [bytesRead, position]; rfl
      rw [position] at recv
      generalize call : use.recv = state at recv
      cases recv with
      | outside outside =>
          exact used.still (InRecv.away (position ▸ outside) outside) rfl rfl none
      | recvLen _ own =>
          subst own
          refine used.sample call some (.readLen turn _ _ rfl ?_ ?_) none
          · rw [readLen_toInt, CByteStream.getSize_toInt, used.stream, size]
            exact (Nat.cast_min _ _).symm
          · exact size ▸ Nat.min_le_left _ _
  | readLen turn nReadLen nLen position free =>
      rw [position] at recv
      generalize call : use.recv = state at recv
      cases recv with
      | outside outside =>
          obtain ⟨none, stream⟩ := read_elsewhere (by rw [position]; rfl)
            (fun same : turn.key = addr => outside (congrArg some same))
          exact used.still (InRecv.away (position ▸ outside) outside) rfl stream none
      | readLen _ _ sampled own same covered =>
          exact used.readLen own position (own ▸ free) call same covered
  | recvBuf turn nLen nReadLen position some size =>
      have none : service.bytesRead addr .mainLoop = [] := by rw [bytesRead, position]; rfl
      rw [position] at recv
      generalize call : use.recv = state at recv
      cases recv with
      | outside outside =>
          exact used.still (InRecv.away (position ▸ outside) outside) rfl rfl none
      | recvBuf _ _ own =>
          subst own
          refine used.sample call some (.readBuf turn _ _ _ rfl ?_ ?_) none
          · rw [readLen_toInt, CByteStream.getSize_toInt, used.stream, size]
          · exact size ▸ min_le_left _ _
  | readBuf turn nReadLen sql position free inside =>
      rw [position] at recv
      generalize call : use.recv = state at recv
      cases recv with
      | outside outside =>
          obtain ⟨none, stream⟩ := read_elsewhere (by rw [position]; rfl)
            (fun same : turn.key = addr => outside (congrArg some same))
          exact used.still (InRecv.away (position ▸ outside) away) rfl stream none
      | readBuf _ _ nLen sampled own same covered =>
          exact used.readBuf own position (own ▸ free) call same inside.1 covered
  | addTask _ _ _ position | added position =>
      refine used.still (InRecv.away (by rw [position]; exact away) away) rfl rfl ?_
      rw [bytesRead, position]
      rfl

-----------------------------------------------------------------------------------------
-- Whole runs
-----------------------------------------------------------------------------------------

/-- What any step of the server does to a client's stream is a run of the stream. -/
theorem InUse.step (used : InUse addr service use) (space : HasSpace addr service event)
    (stepped : service.step event = some next)
    : Uses addr service event next use := by
  have stays (outside : event ≠ .mainLoop) {size : Nat} {call : RecvCall}
      : InRecv addr size service.mainLoop call → InRecv addr size next.mainLoop call := by
    rcases step_mainLoop outside stepped with same | ⟨position, other, same⟩
    · rw [same]
      exact id
    · rw [position, same]
      exact InRecv.away nofun nofun
  have quiet (others : event.receives = false) (outside : event ≠ .mainLoop)
      (none : service.bytesRead addr event = [])
      : Uses addr service event next use := by
    have received := step_received others stepped addr
    have stream := received.stream
    rw [none] at stream
    exact used.still (stays outside) (by rw [received.recvThread]) stream none
  cases event with
  | mainLoop => exact used.mainLoop stepped
  | recvThread => exact used.recvThread (space rfl) stepped
  | select | addTask | thread | query | execute | transmit => exact quiet rfl nofun rfl
  | arrive fromAddr packet =>
      obtain ⟨before, after⟩ := arrive_unwritten stepped
      exact used.still (stays nofun) (after.trans before.symm) (arrive_byteStream stepped addr) rfl

/-- In every interleaving of the threads a client's stream is used as one with a single reader and a
single writer, whose calls of `Recv` return what the server reads, and no `Read` asks for more bytes
than there are.
-/
theorem inUse_of_run {processors : Nat} {events : List (Event Addr Int)}
    (space : Along step (HasSpace addr) (new processors) events)
    (ran : run step (new processors) events = some service)
    : ∃ use,
        Reaches StreamUse.step .start use
        ∧ InUse addr service use
        ∧ use.returned.flatMap Prod.snd = readFrom addr (new processors) events := by
  let invariant (read : List Byte) (now : Service Addr Int) : Prop :=
    ∃ use,
      Reaches StreamUse.step .start use
      ∧ InUse addr now use
      ∧ use.returned.flatMap Prod.snd = read
  have kept {sofar : List Byte} {now after : Service Addr Int} {event : Event Addr Int}
      (holds : invariant sofar now) (space : HasSpace addr now event)
      (stepped : now.step event = some after)
      : invariant (sofar ++ now.bytesRead addr event) after := by
    obtain ⟨use, reached, used, read⟩ := holds
    obtain ⟨later, more, still, returned⟩ := used.step space stepped
    exact ⟨later, reached.trans more, still, read ▸ returned⟩
  have first : invariant [] (new processors) :=
    ⟨.start, .refl, inUse_new processors addr, rfl⟩
  have final := TransitionSystem.trace_invariant_along kept first space ran
  exact final

/-- Client 0's stream, whose length packet was looked at while the text was being pushed. -/
theorem inUse_twoTexts
    : ∃ (service : Service (Fin 2) Int) (use : StreamUse),
        run step (new 1)
            ([.arrive 1 (.establish1 5)] ++ .arrive 0 (.establish1 0) :: twoTexts.take 130)
          = some service
        ∧ Reaches StreamUse.step .start use
        ∧ InUse 0 service use
        ∧ use.returned.flatMap Prod.snd = [2, 0, 0, 0, 65, 0, 2, 0, 0, 0, 66, 0] := by
  obtain ⟨service, reached⟩ := Option.isSome_iff_exists.mp
    (by decide +kernel
      : ((run step (new 1)
            ([.arrive 1 (.establish1 5)]
            ++ .arrive 0 (.establish1 0) :: twoTexts.take 130)).filter
          (fun service => service.unexecuted 0 = [[66]])).isSome)
  obtain ⟨ran, _⟩ := Option.filter_eq_some_iff.mp reached
  have space : Along step (HasSpace (0 : Fin 2)) (new 1)
      ([.arrive 1 (.establish1 5)] ++ .arrive 0 (.establish1 0) :: twoTexts.take 130) := by
    decide +kernel
  obtain ⟨use, used, uses, returned⟩ := inUse_of_run space ran
  exact ⟨service, use, ran, used, uses, returned.trans (by decide +kernel)⟩

end Service

end SchoolSystem.Server
