import TKey.Lib.ChunkedStream
import TKey.UsbMode

namespace TKey

open ByteMemory ChunkedStream

/-!
# Frames in a stream of packets

What `readcommand` makes of the packets that the USB controller sends.  The
payloads of the packets for the CDC endpoint are a stream in chunks, from which
frames are taken one after the other; the packets of other endpoints are
skipped.
-/

section Packets

/-- A packet that carries something for the CDC endpoint. -/
def Packet.IsCdc (packet : Packet) : Prop :=
  packet.mode = ioCdc ∧ packet.payload ≠ []

/-- A packet for another endpoint. -/
def Packet.IsOther (packet : Packet) : Prop :=
  packet.mode &&& ioCdc = 0

/-- What packets carry for the CDC endpoint, in chunks. -/
def cdcChunks (packets : List Packet) : List (List UInt8) :=
  packets.filterMap fun packet =>
    if packet.mode = ioCdc then some packet.payload else none

/-- The stream of the CDC endpoint, decoded from bytes on the UART. -/
def cdcBytes : Nat → List UInt8 → List UInt8
  | rounds + 1, mode :: len :: rest =>
      (if mode = ioCdc then rest.take len.toNat else []) ++
        cdcBytes rounds (rest.drop len.toNat)
  | _, _ => []

/-- What the CDC endpoint will still deliver. -/
def Uart.pending (uart : Uart) : List UInt8 :=
  (if uart.curEndpoint.endpoint = ioCdc then
      uart.rx.take uart.curEndpoint.len.toNat
    else []) ++
    cdcBytes uart.rx.length (uart.rx.drop uart.curEndpoint.len.toNat)

/-- All packets are for the CDC endpoint or for another one. -/
def Known (packets : List Packet) : Prop :=
  ∀ packet, packet ∈ packets → packet.IsCdc ∨ packet.IsOther

/-- A packet of the CDC endpoint has been selected; `chunk` is left of it. -/
structure Uart.Selected
    (uart : Uart)
    (chunk : List UInt8)
    (chunks : List (List UInt8)) : Prop where
  endpoint : uart.curEndpoint.endpoint = ioCdc
  len : uart.curEndpoint.len.toNat = chunk.length
  nonempty : chunk ≠ []
  later :
    ∃ packets,
      Known packets ∧
        uart.rx = chunk ++ wire packets ∧
        chunks = cdcChunks packets

/-- The CDC endpoint will deliver chunks. -/
inductive Uart.Delivers (uart : Uart) : List (List UInt8) → Prop where
  /-- The current packet is used up. -/
  | between (packets : List Packet)
      (known : Known packets)
      (usedUp : uart.curEndpoint.len = 0)
      (rx : uart.rx = wire packets) :
      Delivers uart (cdcChunks packets)
  | within {chunk : List UInt8} {chunks : List (List UInt8)}
      (selected : uart.Selected chunk chunks) :
      Delivers uart (chunk :: chunks)

/-- No chunk for the CDC endpoint is empty. -/
theorem Known.ne_nil
    {packets : List Packet}
    (known : Known packets)
    {chunk : List UInt8}
    (member : chunk ∈ cdcChunks packets) :
    chunk ≠ [] := by
  obtain ⟨packet, isPacket, carries⟩ := List.mem_filterMap.mp member
  by_cases isCdc : packet.mode = ioCdc
  · rw [if_pos isCdc] at carries
    cases carries
    rcases known packet isPacket with cdc | other
    · exact cdc.2
    · rw [Packet.IsOther, isCdc] at other
      exact absurd other (by decide)
  · rw [if_neg isCdc] at carries
    cases carries

theorem Known.tail
    {packet : Packet}
    {packets : List Packet}
    (known : Known (packet :: packets)) :
    Known packets :=
  fun other member => known other (List.mem_cons_of_mem _ member)

theorem Uart.Delivers.ne_nil
    {uart : Uart}
    {chunks : List (List UInt8)}
    (delivers : uart.Delivers chunks)
    {chunk : List UInt8}
    (member : chunk ∈ chunks) :
    chunk ≠ [] := by
  cases delivers with
  | between packets known usedUp rx =>
      exact known.ne_nil member
  | within selected =>
      obtain ⟨packets, known, _, rfl⟩ := selected.later
      rcases List.mem_cons.mp member with rfl | later
      · exact selected.nonempty
      · exact known.ne_nil later

theorem cdcChunks_cons (packet : Packet) (packets : List Packet) :
    cdcChunks (packet :: packets) =
      (if packet.mode = ioCdc then [packet.payload] else []) ++
        cdcChunks packets := by
  rw [cdcChunks, List.filterMap_cons]
  by_cases isCdc : packet.mode = ioCdc
  · rw [if_pos isCdc, if_pos isCdc]
    rfl
  · rw [if_neg isCdc, if_neg isCdc]
    rfl

/-- Packets are decoded to what they carry. -/
theorem cdcBytes_wire
    {packets : List Packet}
    {rounds : Nat}
    (enough : packets.length ≤ rounds) :
    cdcBytes rounds (wire packets) = (cdcChunks packets).flatten := by
  induction packets generalizing rounds with
  | nil =>
      cases rounds <;> rfl
  | cons packet packets inductionHypothesis =>
      obtain ⟨rounds, rfl⟩ :=
        Nat.exists_eq_add_one.mpr (Nat.lt_of_lt_of_le (by simp) enough)
      have fewer : packets.length ≤ rounds := Nat.le_of_succ_le_succ enough
      rw [wire_cons, cdcBytes, toNat_ofNat_length, List.take_left,
        List.drop_left, inductionHypothesis fewer, cdcChunks_cons,
        List.flatten_append]
      by_cases isCdc : packet.mode = ioCdc
      · rw [if_pos isCdc, if_pos isCdc, List.flatten_singleton]
      · rw [if_neg isCdc, if_neg isCdc, List.flatten_nil]

/-- What is pending are the chunks that will be delivered. -/
theorem Uart.Delivers.pending_eq
    {uart : Uart}
    {chunks : List (List UInt8)}
    (delivers : uart.Delivers chunks) :
    uart.pending = chunks.flatten := by
  cases delivers with
  | between packets known usedUp rx =>
      have zero : (0 : UInt8).toNat = 0 := rfl
      rw [Uart.pending, usedUp, zero, List.take_zero, List.drop_zero,
        ite_self, List.nil_append, rx,
        cdcBytes_wire (length_le_length_wire packets)]
  | within selected =>
      obtain ⟨packets, _, rx, rfl⟩ := selected.later
      have enough :
          packets.length ≤ uart.rx.length := by
        rw [rx, List.length_append]
        exact
          Nat.le_trans (length_le_length_wire packets)
            (Nat.le_add_left _ _)
      rw [Uart.pending, if_pos selected.endpoint, selected.len, rx,
        List.take_left, List.drop_left, ← rx, cdcBytes_wire enough,
        List.flatten_cons]

end Packets

section Reading

/-- A selected packet is already the current one. -/
theorem Uart.Selected.nextPacket_run
    {uart : Uart}
    {chunk : List UInt8}
    {chunks : List (List UInt8)}
    (selected : uart.Selected chunk chunks) :
    nextPacket.run uart = .ok () uart := by
  apply nextPacket_run_of_ne_zero
  intro usedUp
  have length := selected.len
  rw [usedUp] at length
  exact
    absurd length
      (Nat.ne_of_lt (List.length_pos_of_ne_nil selected.nonempty))

/-- Reading the next packet selects it when it is for the CDC endpoint. -/
theorem selected_of_isCdc
    {packet : Packet}
    {packets : List Packet}
    (known : Known packets)
    (isCdc : packet.IsCdc) :
    Uart.Selected
      { curEndpoint :=
          { endpoint := packet.mode
            len := UInt8.ofNat packet.payload.length }
        rx := packet.payload ++ wire packets }
      packet.payload (cdcChunks packets) where
  endpoint := isCdc.1
  len := toNat_ofNat_length packet
  nonempty := isCdc.2
  later := ⟨packets, known, rfl, rfl⟩

/-- The loop of `readselect` finds the next packet of the CDC endpoint. -/
theorem readselectLoop_between
    {packets : List Packet}
    (known : Known packets)
    {chunk : List UInt8}
    {chunks : List (List UInt8)}
    (delivered : cdcChunks packets = chunk :: chunks)
    {rounds : Nat}
    (enough : packets.length ≤ rounds)
    {uart : Uart}
    (usedUp : uart.curEndpoint.len = 0)
    (rx : uart.rx = wire packets) :
    ∃ uart',
      (Uart.readselectLoop ioCdc rounds).run uart =
          .ok uart'.curEndpoint.len uart' ∧
        uart'.Selected chunk chunks := by
  induction packets generalizing rounds uart with
  | nil =>
      cases delivered
  | cons packet packets inductionHypothesis =>
      obtain ⟨rounds, rfl⟩ :=
        Nat.exists_eq_add_one.mpr (Nat.lt_of_lt_of_le (by simp) enough)
      have fewer : packets.length ≤ rounds := Nat.le_of_succ_le_succ enough
      have next := Uart.nextPacket_run usedUp (rx.trans (wire_cons _ _))
      rw [cdcChunks_cons] at delivered
      rcases known packet List.mem_cons_self with cdc | other
      · rw [if_pos cdc.1] at delivered
        cases delivered
        have selected := selected_of_isCdc known.tail cdc
        have asked : packet.mode &&& ioCdc ≠ 0 := by
          rw [cdc.1]
          decide
        exact
          ⟨_, Uart.readselectLoop_run_selected next asked rounds, selected⟩
      · have notCdc : packet.mode ≠ ioCdc := by
          rintro isCdc
          rw [Packet.IsOther, isCdc] at other
          exact absurd other (by decide)
        rw [if_neg notCdc] at delivered
        rw [Uart.readselectLoop_run_discarded next other
          (toNat_ofNat_length packet) rfl rounds]
        apply inductionHypothesis known.tail delivered fewer
        · exact UInt8.sub_self _
        · rfl

/-- The next packet of the CDC endpoint is selected. -/
theorem Uart.Delivers.select
    {uart : Uart}
    {chunk : List UInt8}
    {chunks : List (List UInt8)}
    (delivers : uart.Delivers (chunk :: chunks)) :
    ∃ uart',
      (readselect ioCdc).run uart =
          .ok (some uart'.curEndpoint.len) uart' ∧
        uart'.Selected chunk chunks := by
  have loops :
      ∃ uart',
        (readselectLoop ioCdc (uart.rx.length + 2)).run uart =
            .ok uart'.curEndpoint.len uart' ∧
          uart'.Selected chunk chunks := by
    generalize isChunks : chunk :: chunks = all at delivers
    cases delivers with
    | between packets known usedUp rx =>
        have enough : packets.length ≤ uart.rx.length + 2 := by
          rw [rx]
          exact Nat.le_add_right_of_le (length_le_length_wire packets)
        exact
          readselectLoop_between known isChunks.symm enough usedUp rx
    | within selected =>
        cases isChunks
        have asked : uart.curEndpoint.endpoint &&& ioCdc ≠ 0 := by
          rw [selected.endpoint]
          decide
        exact
          ⟨uart,
            readselectLoop_run_selected selected.nextPacket_run asked _,
            selected⟩
  obtain ⟨uart', ran, selected⟩ := loops
  exact ⟨uart', readselect_cdc_run ran, selected⟩

/-- Bytes of the selected packet are read. -/
theorem Uart.Selected.read
    {uart : Uart}
    {chunk : List UInt8}
    {chunks : List (List UInt8)}
    (selected : uart.Selected chunk chunks)
    {count bufsize : Nat}
    (inside : count ≤ chunk.length)
    (fits : count ≤ bufsize) :
    ∃ uart',
      (Uart.read ioCdc bufsize count).run uart =
          .ok (some (chunk.take count)) uart' ∧
        uart'.Delivers (chop count (chunk :: chunks)) := by
  obtain ⟨packets, known, rx, rfl⟩ := selected.later
  have length : (chunk.take count).length = count :=
    List.length_take_of_le inside
  have split :
      uart.rx =
        chunk.take count ++ (chunk.drop count ++ wire packets) := by
    rw [rx, ← List.append_assoc, List.take_append_drop]
  have reads :=
    read_cdc_run (Nat.le_trans (Nat.le_of_eq length) fits)
      selected.endpoint split
  rw [length] at reads
  refine ⟨_, reads, ?_⟩
  have left :
      (uart.curEndpoint.len - UInt8.ofNat count).toNat =
        chunk.length - count := by
    have small : count ≤ uart.curEndpoint.len.toNat :=
      Nat.le_trans inside (Nat.le_of_eq selected.len.symm)
    have byte : (UInt8.ofNat count).toNat = count :=
      Nat.mod_eq_of_lt
        (Nat.lt_of_le_of_lt small (UInt8.toNat_lt _))
    rw [UInt8.toNat_sub_of_le, byte, selected.len]
    rw [UInt8.le_iff_toNat_le, byte]
    exact small
  rcases Nat.lt_or_eq_of_le inside with less | rfl
  · rw [chop_inside less]
    refine .within ?_
    exact {
      endpoint := selected.endpoint
      len := by rw [List.length_drop]; exact left
      nonempty := List.ne_nil_of_length_pos (by simp; omega)
      later := ⟨packets, known, rfl, rfl⟩ }
  · rw [chop_beyond (Nat.le_refl _), Nat.sub_self,
      chop_zero (fun _ => known.ne_nil)]
    refine .between packets known ?_ ?_
    · apply UInt8.toNat_inj.mp
      rw [Nat.sub_self] at left
      exact left
    · change _ ++ wire packets = wire packets
      rw [List.drop_length, List.nil_append]

/-- A round takes all that is expected of a payload from the packet. -/
theorem Uart.Delivers.round
    {uart : Uart}
    {chunk : List UInt8}
    {chunks : List (List UInt8)}
    (delivers : uart.Delivers (chunk :: chunks))
    (len : Nat)
    (cmd : List UInt8)
    (fits : min chunk.length len ≤ cmdsize - cmd.length)
    (room : cmd.length < cmdsize) :
    ∃ uart',
      (readround len cmd).run uart =
          .ok (some (cmd ++ chunk.take (min chunk.length len))) uart' ∧
        uart'.Delivers
          (chop (min chunk.length len) (chunk :: chunks)) := by
  obtain ⟨current, selects, selected⟩ := delivers.select
  obtain ⟨uart', reads, delivers'⟩ :=
    selected.read (Nat.min_le_left _ _) fits
  rw [← selected.len] at reads
  refine ⟨uart', ?_, delivers'⟩
  rw [readround_run room selects reads, selected.len]
  rfl

/-- A round that asks for more than there is room for fails. -/
theorem Uart.Delivers.round_too_long
    {uart : Uart}
    {chunk : List UInt8}
    {chunks : List (List UInt8)}
    (delivers : uart.Delivers (chunk :: chunks))
    (len : Nat)
    (cmd : List UInt8)
    (tooLong : cmdsize - cmd.length < min chunk.length len)
    (room : cmd.length < cmdsize) :
    ∃ uart', (readround len cmd).run uart = .ok none uart' := by
  obtain ⟨current, selects, selected⟩ := delivers.select
  rw [← selected.len] at tooLong
  exact
    ⟨current,
      readround_run room selects
        (read_too_long_run ioCdc tooLong current)⟩

/-- A packet that does not go beyond the payload is read as a whole. -/
theorem Uart.Delivers.round_whole
    {uart : Uart}
    {chunk : List UInt8}
    {chunks : List (List UInt8)}
    (delivers : uart.Delivers (chunk :: chunks))
    {cmd rest later : List UInt8}
    (stream : (chunk :: chunks).flatten = rest ++ later)
    (covers : chunk.length ≤ rest.length)
    (fits : cmd.length + rest.length ≤ cmdsize) :
    ∃ rest' uart',
      rest = chunk ++ rest' ∧
        chunks.flatten = rest' ++ later ∧
        (readround (cmd.length + rest.length) cmd).run uart =
          .ok (some (cmd ++ chunk)) uart' ∧
        uart'.Delivers chunks := by
  have inPacket :
      min chunk.length (cmd.length + rest.length) = chunk.length :=
    Nat.min_eq_left (Nat.le_trans covers (Nat.le_add_left _ _))
  have nonempty : 0 < chunk.length :=
    List.length_pos_of_ne_nil (delivers.ne_nil List.mem_cons_self)
  obtain ⟨uart', reads, delivers'⟩ :=
    delivers.round (cmd.length + rest.length) cmd
      (by omega) (by omega)
  rw [List.flatten_cons] at stream
  obtain ⟨rest', rfl⟩ :=
    List.prefix_of_prefix_length_le
      ⟨chunks.flatten, rfl⟩ ⟨later, stream.symm⟩ covers
  rw [List.append_assoc] at stream
  rw [inPacket, List.take_length] at reads
  rw [inPacket, chop_beyond (Nat.le_refl _), Nat.sub_self,
    chop_zero fun other member =>
      delivers.ne_nil (List.mem_cons_of_mem _ member)] at delivers'
  exact
    ⟨rest', uart', rfl, List.append_cancel_left stream, reads, delivers'⟩

/-- A payload that ends where a packet ends is read. -/
theorem Uart.Delivers.payload_of_isBoundary
    {chunks : List (List UInt8)}
    {uart : Uart}
    (delivers : uart.Delivers chunks)
    {cmd rest later : List UInt8}
    (stream : chunks.flatten = rest ++ later)
    (boundary : IsBoundary chunks rest.length)
    (fits : cmd.length + rest.length ≤ cmdsize)
    {rounds : Nat}
    (enough : rest.length ≤ rounds) :
    ∃ uart',
      (readpayload (cmd.length + rest.length) rounds cmd).run uart =
          .ok (some (cmd ++ rest)) uart' ∧
        uart'.Delivers (chop rest.length chunks) := by
  induction chunks generalizing uart cmd rest rounds with
  | nil =>
      obtain rfl :=
        List.eq_nil_of_length_eq_zero (isBoundary_nil_iff.mp boundary)
      refine ⟨uart, ?_, ?_⟩
      · rw [List.append_nil]
        exact readpayload_run_done (Nat.le_refl _) rounds uart
      · rw [chop_nil]
        exact delivers
  | cons chunk chunks inductionHypothesis =>
      rcases Nat.eq_zero_or_pos rest.length with nothing | positive
      · obtain rfl := List.eq_nil_of_length_eq_zero nothing
        refine ⟨uart, ?_, ?_⟩
        · rw [List.append_nil]
          exact readpayload_run_done (Nat.le_refl _) rounds uart
        · rw [List.length_nil, chop_zero (fun _ => delivers.ne_nil)]
          exact delivers
      · obtain ⟨covers, boundary'⟩ :=
          (isBoundary_cons_iff positive).mp boundary
        obtain ⟨rest', current, rfl, stream', reads, delivers'⟩ :=
          delivers.round_whole stream covers fits
        have nonempty : 0 < chunk.length :=
          List.length_pos_of_ne_nil
            (delivers.ne_nil List.mem_cons_self)
        have more :
            cmd.length < cmd.length + (chunk ++ rest').length :=
          Nat.lt_add_of_pos_right positive
        have length :
            (cmd ++ chunk).length + rest'.length =
              cmd.length + (chunk ++ rest').length := by
          rw [List.length_append, List.length_append]
          omega
        rw [List.length_append] at enough boundary'
        rw [Nat.add_sub_cancel_left] at boundary'
        obtain ⟨rounds, rfl⟩ :=
          Nat.exists_eq_add_one.mpr
            (show 0 < rounds by omega)
        rw [← length] at fits
        obtain ⟨uart', ran, left⟩ :=
          inductionHypothesis delivers' stream' boundary' fits
            (show rest'.length ≤ rounds by omega)
        refine ⟨uart', ?_, ?_⟩
        · rw [length, List.append_assoc] at ran
          rw [readpayload_run_some more reads, ran]
        · rw [chop_beyond covers, List.length_append,
            Nat.add_sub_cancel_left]
          exact left

/-- A payload that ends inside a packet is not read alone. -/
theorem Uart.Delivers.payload_of_not_isBoundary
    {chunks : List (List UInt8)}
    {uart : Uart}
    (delivers : uart.Delivers chunks)
    {cmd rest later : List UInt8}
    (started : cmd ≠ [])
    (stream : chunks.flatten = rest ++ later)
    (inside : ¬ IsBoundary chunks rest.length)
    (fits : cmd.length + rest.length ≤ cmdsize)
    {rounds : Nat}
    {cmd' : List UInt8}
    {uart' : Uart}
    (ran :
      (readpayload (cmd.length + rest.length) rounds cmd).run uart =
        .ok (some cmd') uart') :
    uart'.pending.length < later.length := by
  induction chunks generalizing uart cmd rest rounds with
  | nil =>
      have empty := List.append_eq_nil_iff.mp stream.symm
      rw [empty.1] at inside
      exact absurd (isBoundary_zero _) inside
  | cons chunk chunks inductionHypothesis =>
      have positive : 0 < rest.length := by
        apply Nat.pos_of_ne_zero
        intro nothing
        rw [nothing] at inside
        exact inside (isBoundary_zero _)
      have begun := List.length_pos_of_ne_nil started
      have more : cmd.length < cmd.length + rest.length :=
        Nat.lt_add_of_pos_right positive
      have room : cmd.length < cmdsize := Nat.lt_of_lt_of_le more fits
      cases rounds with
      | zero =>
          rw [readpayload_run_spins more] at ran
          cases ran
      | succ rounds =>
          rcases Nat.lt_or_ge rest.length chunk.length with beyond | covers
          · -- The packet has more than is missing of the payload.
            have tooMuch :
                rest.length <
                  min chunk.length (cmd.length + rest.length) :=
              Nat.lt_min.mpr ⟨beyond, Nat.lt_add_of_pos_left begun⟩
            rcases Nat.lt_or_ge (cmdsize - cmd.length)
              (min chunk.length (cmd.length + rest.length))
              with tooLong | fits'
            · obtain ⟨current, fails⟩ :=
                delivers.round_too_long _ cmd tooLong room
              rw [readpayload_run_none more fails] at ran
              cases ran
            · obtain ⟨current, reads, delivers'⟩ :=
                delivers.round _ cmd fits' room
              have done :
                  cmd.length + rest.length ≤
                    (cmd ++
                      chunk.take
                        (min chunk.length
                          (cmd.length + rest.length))).length := by
                rw [List.length_append, List.length_take]
                omega
              rw [readpayload_run_some more reads,
                readpayload_run_done done] at ran
              cases ran
              have available :
                  chunk.length ≤ rest.length + later.length := by
                rw [← List.length_append, ← stream, List.flatten_cons,
                  List.length_append]
                exact Nat.le_add_right _ _
              rw [delivers'.pending_eq, flatten_chop, stream,
                List.length_drop, List.length_append]
              omega
          · obtain ⟨rest', current, rfl, stream', reads, delivers'⟩ :=
              delivers.round_whole stream covers fits
            have inside' : ¬ IsBoundary chunks rest'.length := by
              intro boundary
              apply inside
              rw [isBoundary_cons_iff positive, List.length_append,
                Nat.add_sub_cancel_left]
              exact ⟨Nat.le_add_right _ _, boundary⟩
            have length :
                (cmd ++ chunk).length + rest'.length =
                  cmd.length + (chunk ++ rest').length := by
              rw [List.length_append, List.length_append]
              omega
            rw [readpayload_run_some more reads, ← length] at ran
            rw [← length] at fits
            exact
              inductionHypothesis delivers'
                (List.append_ne_nil_of_left_ne_nil started _) stream'
                inside' fits ran

/-- A payload is read when its end does not matter or is a packet's end. -/
theorem Uart.Delivers.payload
    {chunks : List (List UInt8)}
    {uart : Uart}
    (delivers : uart.Delivers chunks)
    {payload later : List UInt8}
    (stream : chunks.flatten = payload ++ later)
    (nonempty : payload ≠ [])
    (fits : payload.length ≤ cmdsize)
    (splits :
      ∀ inner,
        0 < inner → inner < payload.length →
          IsBoundary chunks inner → IsBoundary chunks payload.length)
    {rounds : Nat}
    (enough : payload.length ≤ rounds) :
    ∃ uart',
      (readpayload payload.length rounds []).run uart =
          .ok (some payload) uart' ∧
        uart'.Delivers (chop payload.length chunks) := by
  have length : ([] : List UInt8).length + payload.length = payload.length :=
    Nat.zero_add _
  have positive := List.length_pos_of_ne_nil nonempty
  have ofBoundary (boundary : IsBoundary chunks payload.length) :=
    delivers.payload_of_isBoundary stream boundary
      (Nat.le_trans (Nat.le_of_eq length) fits) enough
  rw [length] at ofBoundary
  cases chunks with
  | nil =>
      exact absurd (List.append_eq_nil_iff.mp stream.symm).1 nonempty
  | cons chunk chunks =>
      have begun : 0 < chunk.length :=
        List.length_pos_of_ne_nil (delivers.ne_nil List.mem_cons_self)
      rcases Nat.lt_or_ge chunk.length payload.length with spans | inside
      · apply ofBoundary
        apply splits chunk.length begun spans
        rw [isBoundary_cons_iff begun, Nat.sub_self]
        exact ⟨Nat.le_refl _, isBoundary_zero _⟩
      · have count : min chunk.length payload.length = payload.length :=
          Nat.min_eq_right inside
        have first : chunk.take payload.length = payload := by
          have prefixes := congrArg (List.take payload.length) stream
          rw [List.flatten_cons, List.take_append_of_le_length inside,
            List.take_left] at prefixes
          exact prefixes
        obtain ⟨uart', reads, delivers'⟩ :=
          delivers.round payload.length []
            (Nat.le_trans (Nat.min_le_right _ _) fits)
            (Nat.lt_of_lt_of_le positive fits)
        rw [count, first, List.nil_append] at reads
        rw [count] at delivers'
        obtain ⟨rounds, rfl⟩ :=
          Nat.exists_eq_add_one.mpr (Nat.lt_of_lt_of_le positive enough)
        refine ⟨uart', ?_, delivers'⟩
        rw [readpayload_run_some positive reads,
          readpayload_run_done (Nat.le_refl _)]

/-- A payload over several packets takes the last one as a whole. -/
theorem Uart.Delivers.payload_overread
    {chunks : List (List UInt8)}
    {uart : Uart}
    (delivers : uart.Delivers chunks)
    {payload later : List UInt8}
    (stream : chunks.flatten = payload ++ later)
    (fits : payload.length ≤ cmdsize)
    {inner : Nat}
    (positive : 0 < inner)
    (inPayload : inner < payload.length)
    (spans : IsBoundary chunks inner)
    (inside : ¬ IsBoundary chunks payload.length)
    {rounds : Nat}
    {cmd' : List UInt8}
    {uart' : Uart}
    (ran :
      (readpayload payload.length rounds []).run uart =
        .ok (some cmd') uart') :
    uart'.pending.length < later.length := by
  have notEmpty : ([] : List UInt8).length < payload.length :=
    Nat.lt_trans positive inPayload
  cases chunks with
  | nil =>
      rw [isBoundary_nil_iff] at spans
      exact absurd spans (Nat.ne_of_gt positive)
  | cons chunk chunks =>
      have covers : chunk.length ≤ payload.length :=
        Nat.le_trans ((isBoundary_cons_iff positive).mp spans).1
          (Nat.le_of_lt inPayload)
      have length :
          ([] : List UInt8).length + payload.length = payload.length :=
        Nat.zero_add _
      obtain ⟨rest, current, rfl, stream', reads, delivers'⟩ :=
        delivers.round_whole stream covers
          (Nat.le_trans (Nat.le_of_eq length) fits)
      rw [length, List.nil_append] at reads
      cases rounds with
      | zero =>
          rw [readpayload_run_spins notEmpty] at ran
          cases ran
      | succ rounds =>
          rw [readpayload_run_some notEmpty reads,
            List.length_append] at ran
          rw [List.length_append] at fits
          have inside' : ¬ IsBoundary chunks rest.length := by
            intro boundary
            apply inside
            rw [isBoundary_cons_iff notEmpty, List.length_append,
              Nat.add_sub_cancel_left]
            exact ⟨Nat.le_add_right _ _, boundary⟩
          exact
            delivers'.payload_of_not_isBoundary
              (delivers.ne_nil List.mem_cons_self) stream' inside' fits
              ran

end Reading

section Frames

/-- A frame for the firmware. -/
structure Frame where
  header : UInt8
  payload : List UInt8
  hdr : FrameHeader
  parses : parseframe header = some hdr
  endpoint : hdr.endpoint = dstFw
  length : payload.length = hdr.len

def Frame.bytes (frame : Frame) : List UInt8 :=
  frame.header :: frame.payload

/-- What `readcommand` makes of a frame. -/
def Frame.command (frame : Frame) : FrameHeader × Vector UInt8 128 :=
  (frame.hdr, toVector 128 frame.payload)

/-- Successive calls of `readcommand` return frames and take no byte more. -/
inductive ReadsFrames : Uart → List Frame → Prop where
  | nil (uart : Uart) : ReadsFrames uart []
  | cons {uart uart' : Uart} {frame : Frame} {frames : List Frame}
      (returns :
        Uart.readcommand.run uart = .ok (some frame.command) uart')
      (consumes : uart.pending = frame.bytes ++ uart'.pending)
      (later : ReadsFrames uart' frames) :
      ReadsFrames uart (frame :: frames)

/--
Every frame of a stream that has a packet's end inside its payload ends where a
packet ends.  The first frame starts after `start` bytes.
-/
def SplitsWell (chunks : List (List UInt8)) : Nat → List Frame → Prop
  | _, [] => True
  | start, frame :: frames =>
      (∀ inner,
        start + 1 < inner → inner < start + frame.bytes.length →
          IsBoundary chunks inner →
            IsBoundary chunks (start + frame.bytes.length)) ∧
        SplitsWell chunks (start + frame.bytes.length) frames

theorem bytelen_bounds
    {cmdlen : UInt8}
    {len : Nat}
    (code : bytelen cmdlen = some len) :
    0 < len ∧ len ≤ cmdsize := by
  unfold bytelen at code
  split at code
  · cases code
    decide
  · split at code
    · cases code
      decide
    · split at code
      · cases code
        decide
      · split at code
        · cases code
          decide
        · cases code

/-- A payload fits into the command buffer. -/
theorem Frame.bounds (frame : Frame) :
    0 < frame.payload.length ∧ frame.payload.length ≤ cmdsize := by
  have parses := frame.parses
  rw [frame.length]
  unfold parseframe at parses
  split at parses
  · cases parses
  · split at parses
    · cases parses
    · obtain ⟨len, code, header⟩ := Option.bind_eq_some_iff.mp parses
      rw [← Option.some.inj header]
      exact bytelen_bounds code

/-- The header is read from the stream before the payload. -/
theorem Uart.Delivers.header
    {chunks : List (List UInt8)}
    {uart : Uart}
    (delivers : uart.Delivers chunks)
    {header : UInt8}
    {rest : List UInt8}
    (stream : chunks.flatten = header :: rest) :
    ∃ available current uart',
      (readselect ioCdc).run uart = .ok (some available) current ∧
        (Uart.read ioCdc 1 1).run current = .ok (some [header]) uart' ∧
        uart'.Delivers (chop 1 chunks) := by
  cases chunks with
  | nil =>
      cases stream
  | cons chunk chunks =>
      have nonempty : 1 ≤ chunk.length :=
        List.length_pos_of_ne_nil (delivers.ne_nil List.mem_cons_self)
      obtain ⟨current, selects, selected⟩ := delivers.select
      obtain ⟨uart', reads, delivers'⟩ :=
        selected.read nonempty (Nat.le_refl 1)
      have first : chunk.take 1 = [header] := by
        have prefixes := congrArg (List.take 1) stream
        rw [List.flatten_cons,
          List.take_append_of_le_length nonempty] at prefixes
        exact prefixes
      rw [first] at reads
      exact ⟨_, current, uart', selects, reads, delivers'⟩

/-- After the header `readcommand` returns what the payload loop returns. -/
theorem Uart.Delivers.readcommand_run
    {chunks : List (List UInt8)}
    {uart : Uart}
    (delivers : uart.Delivers chunks)
    (frame : Frame)
    {rest : List UInt8}
    (stream : chunks.flatten = frame.header :: rest) :
    ∃ uart' rounds,
      uart'.Delivers (chop 1 chunks) ∧
        (chop 1 chunks).flatten = rest ∧
        frame.payload.length ≤ rounds ∧
        readcommand.run uart =
          (readpayload frame.payload.length rounds [] >>= fun payload =>
            return payload.map fun cmd =>
              (frame.hdr, toVector 128 cmd)).run uart' := by
  obtain ⟨available, current, uart', selects, reads, delivers'⟩ :=
    delivers.header stream
  refine
    ⟨uart', frame.hdr.len + uart'.rx.length + 1, delivers', ?_, ?_, ?_⟩
  · rw [flatten_chop, stream]
    rfl
  · rw [frame.length]
    omega
  · rw [readcommand, Io.run_bind_of_ok selects]
    simp only
    rw [Io.run_bind_of_ok reads]
    simp only [List.headD_cons, frame.parses]
    rw [Io.run_get_bind, frame.length]
    apply congrArg fun next : Option (List UInt8) → Io _ =>
      (readpayload frame.hdr.len (frame.hdr.len + uart'.rx.length + 1) []
        >>= next).run uart'
    funext payload
    cases payload with
    | none =>
        rfl
    | some cmd =>
        simp only [if_neg (not_not_intro frame.endpoint)]
        rfl

/-- A frame that is split well is read, with none of the bytes behind it. -/
theorem Uart.Delivers.readcommand_returns
    {chunks : List (List UInt8)}
    {uart : Uart}
    (delivers : uart.Delivers chunks)
    (frame : Frame)
    {later : List UInt8}
    (stream : chunks.flatten = frame.bytes ++ later)
    (splits :
      ∀ inner,
        1 < inner → inner < frame.bytes.length →
          IsBoundary chunks inner → IsBoundary chunks frame.bytes.length) :
    ∃ uart',
      readcommand.run uart = .ok (some frame.command) uart' ∧
        uart'.Delivers (chop frame.bytes.length chunks) := by
  have length : frame.bytes.length = 1 + frame.payload.length :=
    Nat.add_comm _ _
  have bounds := frame.bounds
  obtain ⟨current, rounds, delivers', stream', enough, runs⟩ :=
    delivers.readcommand_run frame stream
  rw [length] at splits
  obtain ⟨uart', ran, left⟩ :=
    delivers'.payload stream' (List.ne_nil_of_length_pos bounds.1)
      bounds.2
      (fun inner positive inPayload boundary => by
        rw [isBoundary_chop_iff positive] at boundary
        rw [isBoundary_chop_iff bounds.1]
        exact
          splits (1 + inner) (by omega) (by omega) boundary)
      enough
  rw [chop_chop] at left
  refine ⟨uart', ?_, ?_⟩
  · rw [runs, Io.run_bind_of_ok ran]
    rfl
  · rw [length]
    exact left

/-- A frame that is returned and took no byte more is split well. -/
theorem Uart.Delivers.splits_of_readcommand
    {chunks : List (List UInt8)}
    {uart uart' : Uart}
    (delivers : uart.Delivers chunks)
    (frame : Frame)
    {later : List UInt8}
    (stream : chunks.flatten = frame.bytes ++ later)
    (returns : readcommand.run uart = .ok (some frame.command) uart')
    (consumes : uart.pending = frame.bytes ++ uart'.pending)
    {inner : Nat}
    (inPayload : 1 < inner)
    (beforeEnd : inner < frame.bytes.length)
    (spans : IsBoundary chunks inner) :
    IsBoundary chunks frame.bytes.length := by
  by_contra inside
  have length : frame.bytes.length = 1 + frame.payload.length :=
    Nat.add_comm _ _
  have bounds := frame.bounds
  obtain ⟨current, rounds, delivers', stream', enough, runs⟩ :=
    delivers.readcommand_run frame stream
  have pending : uart'.pending = later := by
    rw [delivers.pending_eq, stream] at consumes
    exact (List.append_cancel_left consumes).symm
  obtain ⟨inner, rfl⟩ := Nat.exists_eq_add_of_lt inPayload
  rw [length] at beforeEnd inside
  rw [Nat.add_assoc] at spans beforeEnd
  rw [← isBoundary_chop_iff (Nat.succ_pos inner)] at spans
  rw [← isBoundary_chop_iff bounds.1] at inside
  rw [runs, EStateM.run_bind] at returns
  cases ran :
      (readpayload frame.payload.length rounds []).run current with
  | error stop stopped =>
      rw [ran] at returns
      cases returns
  | ok payload left =>
      rw [ran] at returns
      cases payload with
      | none =>
          cases returns
      | some cmd =>
          injection returns with same rest
          rw [← rest] at pending
          have shorter :=
            delivers'.payload_overread stream' bounds.2
              (Nat.succ_pos inner) (Nat.lt_of_add_lt_add_left beforeEnd)
              spans inside ran
          rw [pending] at shorter
          exact absurd shorter (Nat.lt_irrefl _)

/-- How a frame is split can be told from what is left of the stream. -/
theorem splitsWell_chop
    {chunks : List (List UInt8)}
    {start length : Nat}
    (splits :
      ∀ inner,
        start + 1 < inner → inner < start + length →
          IsBoundary chunks inner → IsBoundary chunks (start + length))
    (inner : Nat)
    (inPayload : 1 < inner)
    (beforeEnd : inner < length)
    (boundary : IsBoundary (chop start chunks) inner) :
    IsBoundary (chop start chunks) length := by
  rw [isBoundary_chop_iff (Nat.lt_of_succ_lt inPayload)] at boundary
  rw [isBoundary_chop_iff (Nat.lt_of_le_of_lt (Nat.zero_le _) beforeEnd)]
  exact
    splits (start + inner) (Nat.add_lt_add_left inPayload start)
      (Nat.add_lt_add_left beforeEnd start) boundary

theorem readsFrames_iff_of_delivers
    {chunks : List (List UInt8)}
    {frames : List Frame}
    {start : Nat}
    {uart : Uart}
    (delivers : uart.Delivers (chop start chunks))
    (stream :
      (chop start chunks).flatten = frames.flatMap Frame.bytes) :
    ReadsFrames uart frames ↔ SplitsWell chunks start frames := by
  induction frames generalizing start uart with
  | nil =>
      exact ⟨fun _ => trivial, fun _ => .nil uart⟩
  | cons frame frames inductionHypothesis =>
      rw [List.flatMap_cons] at stream
      have notEmpty : 0 < frame.bytes.length := Nat.succ_pos _
      have stream' :
          (chop (start + frame.bytes.length) chunks).flatten =
            frames.flatMap Frame.bytes := by
        rw [← chop_chop, flatten_chop, stream, List.drop_left]
      constructor
      · rintro (_ | ⟨returns, consumes, later⟩)
        have splits :
            ∀ inner,
              start + 1 < inner → inner < start + frame.bytes.length →
                IsBoundary chunks inner →
                  IsBoundary chunks (start + frame.bytes.length) := by
          intro inner inPayload beforeEnd boundary
          obtain ⟨inner, rfl⟩ :=
            Nat.exists_eq_add_of_le (Nat.le_of_lt
              (Nat.lt_of_succ_lt inPayload))
          rw [← isBoundary_chop_iff notEmpty]
          rw [← isBoundary_chop_iff (by omega)] at boundary
          exact
            delivers.splits_of_readcommand frame stream returns consumes
              (Nat.lt_of_add_lt_add_left inPayload)
              (Nat.lt_of_add_lt_add_left beforeEnd) boundary
        refine ⟨splits, ?_⟩
        obtain ⟨left, returns', delivers'⟩ :=
          delivers.readcommand_returns frame stream
            (splitsWell_chop splits)
        rw [returns] at returns'
        cases returns'
        rw [chop_chop] at delivers'
        exact (inductionHypothesis delivers' stream').mp later
      · rintro ⟨splits, later⟩
        obtain ⟨uart', returns, delivers'⟩ :=
          delivers.readcommand_returns frame stream
            (splitsWell_chop splits)
        rw [chop_chop] at delivers'
        refine
          .cons returns ?_
            ((inductionHypothesis delivers' stream').mpr later)
        rw [delivers.pending_eq, delivers'.pending_eq, stream, stream']

theorem delivers_initial
    {packets : List Packet}
    (known : Known packets) :
    (Uart.initial (wire packets)).Delivers (cdcChunks packets) :=
  .between packets known rfl rfl

/--
Successive calls of `readcommand` return exactly the frames of the stream, each
with its own bytes, if and only if every frame with a packet's end inside its
payload ends where a packet ends.
-/
theorem stream_framing_iff
    (packets : List Packet)
    (frames : List Frame)
    (known : Known packets)
    (stream :
      (cdcChunks packets).flatten = frames.flatMap Frame.bytes) :
    ReadsFrames (.initial (wire packets)) frames ↔
      SplitsWell (cdcChunks packets) 0 frames := by
  have delivers := delivers_initial known
  have whole := chop_zero fun _ => known.ne_nil
  rw [← whole] at delivers
  exact
    readsFrames_iff_of_delivers delivers (by rw [whole]; exact stream)

/-- A frame with a command of four bytes. -/
def fourByteFrame : Frame where
  header := 0x11
  payload := [1, 2, 3, 4]
  hdr := { id := 0, endpoint := 2, len := 4 }
  parses := by decide
  endpoint := rfl
  length := rfl

/-- A frame with a command of one byte. -/
def oneByteFrame : Frame where
  header := 0x10
  payload := [5]
  hdr := { id := 0, endpoint := 2, len := 1 }
  parses := by decide
  endpoint := rfl
  length := rfl

/-- Each frame in a packet of its own. -/
def alignedPackets : List Packet :=
  [{ mode := ioCdc, payload := [0x11, 1, 2, 3, 4], short := by decide },
    { mode := ioCdc, payload := [0x10, 5], short := by decide }]

/-- The second packet carries the end of the first frame and the next one. -/
def splitPackets : List Packet :=
  [{ mode := ioCdc, payload := [0x11, 1], short := by decide },
    { mode := ioCdc, payload := [2, 3, 4, 0x10, 5], short := by decide }]

theorem stream_framing_sample :
    ReadsFrames (.initial (wire alignedPackets))
        [fourByteFrame, oneByteFrame] ↔
      SplitsWell (cdcChunks alignedPackets) 0
        [fourByteFrame, oneByteFrame] :=
  stream_framing_iff alignedPackets [fourByteFrame, oneByteFrame]
    (by
      rintro packet (_ | ⟨_, _ | ⟨_, member⟩⟩)
      · exact .inl ⟨rfl, List.cons_ne_nil _ _⟩
      · exact .inl ⟨rfl, List.cons_ne_nil _ _⟩
      · cases member)
    rfl

/-- The last byte that is read into the payload is the next frame's header. -/
theorem stream_framing_counterexample :
    Known splitPackets ∧
      (cdcChunks splitPackets).flatten =
        [fourByteFrame, oneByteFrame].flatMap Frame.bytes ∧
      ¬ ReadsFrames (.initial (wire splitPackets))
        [fourByteFrame, oneByteFrame] := by
  refine ⟨?_, rfl, ?_⟩
  · rintro packet (_ | ⟨_, _ | ⟨_, member⟩⟩)
    · exact .inl ⟨rfl, List.cons_ne_nil _ _⟩
    · exact .inl ⟨rfl, List.cons_ne_nil _ _⟩
    · cases member
  · rintro (_ | ⟨returns, consumes, later⟩)
    have overread :
        Uart.readcommand.run (.initial (wire splitPackets)) =
          .ok
            (some
              (fourByteFrame.hdr, toVector 128 [1, 2, 3, 4, 0x10]))
            { curEndpoint := { endpoint := ioCdc, len := 1 }, rx := [5] } :=
      rfl
    rw [returns] at overread
    injection overread with same left
    rw [left] at consumes
    exact absurd consumes (by decide)

end Frames

end TKey
