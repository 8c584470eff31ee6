import IpRouter.Netlink.Messages
import IpRouter.RouteManager.Basic
import IpRouter.Theory.Loop

/-!
# Waiting for the acknowledgement

`change_route` looks for the kernel's acknowledgement in the reply. It counts the
bytes that are left in the signed `length`, which each message lowers by its
padded size, and gives `NLMSG_OK` the unsigned value of it. So the padding of the
last message matters: where the reply ends before it, `length` goes negative, its
unsigned value is huge, and the scan reads on past the reply. And an
acknowledgement has its error code after the header, where nothing looks whether
the message is that long.

`scan_inside_iff` says for which replies the scan ends having read nothing but the
reply: those where every message it skips has its padding, and the acknowledgement
its error code (`Padded`).
-/

namespace IpRouter.Netlink

open Theory RouteManager

/-- The scan: `header`, and the signed `length`. -/
structure AckScan where
  /-- `header`, from the begin of `response`. -/
  header : ℕ
  /-- `length`. -/
  length : ℤ
  deriving DecidableEq

/-- `static_cast<unsigned int>(length)`. -/
def AckScan.remaining (s : AckScan) : ℕ := (s.length % 2 ^ 32).toNat

/-- `NLMSG_NEXT(header, length)`. -/
def AckScan.next (b : Buffer) (s : AckScan) : AckScan :=
  ⟨s.header + nlmsgAlign (nlmsgLen b s.header), s.length - nlmsgAlign (nlmsgLen b s.header)⟩

/-- `NLMSG_OK` reads the length of the message once 16 bytes are left. -/
def AckScan.fits (b : Buffer) (s : AckScan) : Prop :=
  nlmsghdrSize ≤ nlmsgLen b s.header ∧ nlmsgLen b s.header ≤ s.remaining

instance (b : Buffer) (s : AckScan) : Decidable (s.fits b) := inferInstanceAs (Decidable (_ ∧ _))

section
variable [Platform]

/-- A round of the loop of `change_route`, with the fields it reads. -/
def ackRound (b : Buffer) (sequence : ℕ) (s : AckScan) :
    List Read × Round AckScan (Except Bytes Unit) :=
  let len : Read := ⟨s.header, 4⟩
  let seq : Read := ⟨s.header + 8, 4⟩
  let type : Read := ⟨s.header + 4, 2⟩
  let error : Read := ⟨nlmsgData s.header, 4⟩
  if s.remaining < nlmsghdrSize then
    ([], .leave (.error (text "NETLINK_ROUTE returned no acknowledgement")))
  else if ¬ s.fits b then
    ([len], .leave (.error (text "NETLINK_ROUTE returned no acknowledgement")))
  else if nlmsgSeq b s.header ≠ sequence then
    ([len, seq], .next (s.next b))
  else if nlmsgType b s.header ≠ nlmsgError then
    ([len, seq, type], .next (s.next b))
  else if nlmsgerrError b (nlmsgData s.header) = 0 then
    ([len, seq, type, error], .leave (.ok ()))
  else
    ([len, seq, type, error],
      .leave (.error (setError "change route" (-nlmsgerrError b (nlmsgData s.header)))))

/-- **The scan ends, and reads nothing but the reply.** -/
def ScansInside (b : Buffer) (sequence : ℕ) : Prop :=
  ∃ reads result, Ends (ackRound b sequence) ⟨0, b.content.length⟩ reads result ∧
    ∀ read ∈ reads, read.offset + read.size ≤ b.content.length

end

/-! ### What the reply has to look like -/

/-- The message at `header` lies in the reply with its header and its length. -/
def Whole (b : Buffer) (header : ℕ) : Prop :=
  header + nlmsghdrSize ≤ b.content.length ∧ nlmsghdrSize ≤ nlmsgLen b header ∧
    header + nlmsgLen b header ≤ b.content.length

instance (b : Buffer) (header : ℕ) : Decidable (Whole b header) :=
  inferInstanceAs (Decidable (_ ∧ _))

/-- The message at `header` is the acknowledgement. -/
def IsAck (b : Buffer) (sequence header : ℕ) : Prop :=
  nlmsgSeq b header = sequence ∧ nlmsgType b header = nlmsgError

instance (b : Buffer) (sequence header : ℕ) : Decidable (IsAck b sequence header) :=
  inferInstanceAs (Decidable (_ ∧ _))

/-- Where messages begin, up to the acknowledgement. -/
inductive Boundary (b : Buffer) (sequence : ℕ) : ℕ → Prop
  /-- The reply begins with a message. -/
  | first : Boundary b sequence 0
  /-- Another one follows on one that is not the acknowledgement, after its padding. -/
  | skip {header : ℕ} : Boundary b sequence header → Whole b header → ¬ IsAck b sequence header →
      Boundary b sequence (header + nlmsgAlign (nlmsgLen b header))

/-- **The messages up to the acknowledgement lie in the reply with their padding, and the
acknowledgement with its error code.** -/
def Padded (b : Buffer) (sequence : ℕ) : Prop := ∀ header, Boundary b sequence header →
    Whole b header →
  if IsAck b sequence header then nlmsgData header + 4 ≤ b.content.length
  else header + nlmsgAlign (nlmsgLen b header) ≤ b.content.length

/-! ### The scan at a message -/

variable {b : Buffer} {sequence header : ℕ}

/-- The scan at a place in the reply. -/
def scanAt (b : Buffer) (header : ℕ) : AckScan := ⟨header, (b.content.length : ℤ) - header⟩

theorem scanAt_zero (b : Buffer) : scanAt b 0 = ⟨0, b.content.length⟩ := by simp [scanAt]

theorem remaining_scanAt (hlen : b.content.length ≤ 4096) (hle : header ≤ b.content.length) :
    (scanAt b header).remaining = b.content.length - header := by
  simp only [scanAt, AckScan.remaining]
  omega

/-- **Past the reply the unsigned length is huge.** -/
theorem remaining_scanAt_past (hpast : b.content.length < header)
    (hnear : header ≤ b.content.length + 4096) :
    nlmsghdrSize ≤ (scanAt b header).remaining := by
  simp only [scanAt, AckScan.remaining, nlmsghdrSize]
  omega

theorem nlmsgAlign_of_whole (hlen : b.content.length ≤ 4096) (hwhole : Whole b header) :
    nlmsgAlign (nlmsgLen b header) = (nlmsgLen b header + 3) / 4 * 4 := by
  obtain ⟨-, -, hle⟩ := hwhole
  exact nlmsgAlign_eq (by omega)

theorem next_scanAt (b : Buffer) (header : ℕ) :
    (scanAt b header).next b = scanAt b (header + nlmsgAlign (nlmsgLen b header)) := by
  simp only [scanAt, AckScan.next, AckScan.mk.injEq, true_and]
  push_cast
  omega

/-- `NLMSG_OK` holds of the messages that lie in the reply. -/
theorem whole_iff (hlen : b.content.length ≤ 4096) (hle : header ≤ b.content.length) :
    Whole b header ↔ nlmsghdrSize ≤ (scanAt b header).remaining ∧ (scanAt b header).fits b := by
  rw [Whole, AckScan.fits, remaining_scanAt hlen hle,
    show (scanAt b header).header = header from rfl]
  omega

variable [Platform]

/-- As long as a header may be left, the length of the message is read. -/
theorem mem_ackRound_len {s : AckScan} (hsize : nlmsghdrSize ≤ s.remaining) :
    ⟨s.header, 4⟩ ∈ (ackRound b sequence s).1 := by
  unfold ackRound
  rw [if_neg hsize.not_gt]
  split_ifs <;> exact List.mem_cons_self

/-- A message that is not the acknowledgement is skipped. -/
theorem ackRound_skip (hlen : b.content.length ≤ 4096) (hle : header ≤ b.content.length)
    (hwhole : Whole b header) (hack : ¬ IsAck b sequence header) :
    (ackRound b sequence (scanAt b header)).2 =
      .next (scanAt b (header + nlmsgAlign (nlmsgLen b header))) ∧
    ∀ read ∈ (ackRound b sequence (scanAt b header)).1, read.offset + read.size ≤ header +
      nlmsghdrSize := by
  obtain ⟨hsize, hfits⟩ := (whole_iff hlen hle).mp hwhole
  rw [← next_scanAt]
  unfold ackRound
  rw [if_neg hsize.not_gt, if_neg (not_not.mpr hfits)]
  by_cases hseq : nlmsgSeq b header = sequence
  · have htype : nlmsgType b header ≠ nlmsgError := fun h => hack ⟨hseq, h⟩
    simp [scanAt, hseq, htype, nlmsghdrSize]
  · simp [scanAt, hseq, nlmsghdrSize]

/-- At the acknowledgement the error code is read, and the scan ends. -/
theorem ackRound_ack (hlen : b.content.length ≤ 4096) (hle : header ≤ b.content.length)
    (hwhole : Whole b header) (hack : IsAck b sequence header) :
    (∃ r, (ackRound b sequence (scanAt b header)).2 = .leave r) ∧
    (∀ read ∈ (ackRound b sequence (scanAt b header)).1, read.offset + read.size ≤
      nlmsgData header + 4) ∧
      ⟨nlmsgData header, 4⟩ ∈ (ackRound b sequence (scanAt b header)).1 := by
  obtain ⟨hsize, hfits⟩ := (whole_iff hlen hle).mp hwhole
  obtain ⟨hseq, htype⟩ := hack
  unfold ackRound
  rw [if_neg hsize.not_gt, if_neg (not_not.mpr hfits)]
  by_cases herror : nlmsgerrError b (header + 16) = 0 <;>
    simp [scanAt, hseq, htype, herror, nlmsghdrSize, nlmsgData]

/-- Where no message lies in the reply the scan ends. -/
theorem ackRound_end (hlen : b.content.length ≤ 4096) (hle : header ≤ b.content.length)
    (hwhole : ¬ Whole b header) :
    (∃ r, (ackRound b sequence (scanAt b header)).2 = .leave r) ∧
    ∀ read ∈ (ackRound b sequence (scanAt b header)).1, read.offset + read.size ≤
      b.content.length := by
  have hsmall := remaining_scanAt hlen hle
  rw [whole_iff hlen hle, not_and] at hwhole
  unfold ackRound
  by_cases hsize : (scanAt b header).remaining < nlmsghdrSize
  · simp [hsize]
  · have hfits := hwhole (not_lt.mp hsize)
    rw [nlmsghdrSize] at hsize
    simp only [if_neg (show ¬ (scanAt b header).remaining < nlmsghdrSize from hsize), if_pos hfits,
      Round.leave.injEq, exists_eq', List.mem_singleton, forall_eq, true_and]
    simp only [scanAt] at hsize hsmall ⊢
    omega

/-! ### The scan -/

/-- A scan that reads nothing but the reply gets to every message in it. -/
theorem ends_of_boundary (hlen : b.content.length ≤ 4096) (hinside : ScansInside b sequence)
    (hboundary : Boundary b sequence header) : header ≤ b.content.length ∧
      ∃ reads result, Ends (ackRound b sequence) (scanAt b header) reads result ∧
        ∀ read ∈ reads, read.offset + read.size ≤ b.content.length := by
  induction hboundary with
  | first =>
    rw [scanAt_zero]
    exact ⟨Nat.zero_le _, hinside⟩
  | @skip header _ hwhole hack ih =>
    obtain ⟨hle, reads, result, hends, hreads⟩ := ih
    obtain ⟨reads', rfl, hends'⟩ := hends.of_next (ackRound_skip hlen hle hwhole hack).1
    have hreads' : ∀ read ∈ reads', read.offset + read.size ≤ b.content.length :=
      fun read hread => hreads read (List.mem_append_right _ hread)
    refine ⟨not_lt.mp fun hpast => ?_, reads', result, hends', hreads'⟩
    -- past the reply the scan reads the length of another message
    have hsize : nlmsghdrSize ≤ (scanAt b (header + nlmsgAlign (nlmsgLen b header))).remaining := by
      refine remaining_scanAt_past hpast ?_
      have hfits := hwhole.2.2
      rw [nlmsgAlign_of_whole hlen hwhole]
      omega
    have hread := hreads' _ (hends'.mem_of_round (mem_ackRound_len hsize))
    simp only [scanAt] at hread
    omega

/-- **The scan ends and reads nothing but the reply exactly if the reply is padded**. -/
theorem scan_inside_iff (hlen : b.content.length ≤ 4096) :
    ScansInside b sequence ↔ Padded b sequence := by
  constructor
  · intro hinside header hboundary hwhole
    obtain ⟨hle, reads, result, hends, hreads⟩ := ends_of_boundary hlen hinside hboundary
    split_ifs with hack
    · exact hreads _ (hends.mem_of_round (ackRound_ack hlen hle hwhole hack).2.2)
    · exact (ends_of_boundary hlen hinside (.skip hboundary hwhole hack)).1
  · intro hpadded
    have hscan := @exists_ends _ _ _ (ackRound b sequence)
      (fun s => ∃ header, s = scanAt b header ∧ header ≤ b.content.length ∧
        Boundary b sequence header)
      (fun read => read.offset + read.size ≤ b.content.length)
        (fun s => s.length.toNat) ?_ ?_ (scanAt b 0)
      ⟨0, rfl, Nat.zero_le _, .first⟩
    · rwa [scanAt_zero] at hscan
    · rintro _ ⟨header, rfl, hle, hboundary⟩ read hread
      by_cases hwhole : Whole b header
      · have hpad := hpadded header hboundary hwhole
        split_ifs at hpad with hack
        · exact ((ackRound_ack hlen hle hwhole hack).2.1 read hread).trans hpad
        · exact ((ackRound_skip hlen hle hwhole hack).2 read hread).trans hwhole.1
      · exact (ackRound_end hlen hle hwhole).2 read hread
    · rintro _ s' ⟨header, rfl, hle, hboundary⟩ hnext
      by_cases hwhole : Whole b header
      · have hpad := hpadded header hboundary hwhole
        split_ifs at hpad with hack
        · obtain ⟨r, hleave⟩ := (ackRound_ack hlen hle hwhole hack).1
          rw [hleave] at hnext
          cases hnext
        · rw [(ackRound_skip hlen hle hwhole hack).1] at hnext
          obtain rfl := Round.next.inj hnext
          refine ⟨⟨_, rfl, hpad, .skip hboundary hwhole hack⟩, ?_⟩
          have hsize := hwhole.2.1
          rw [nlmsgAlign_of_whole hlen hwhole] at hpad ⊢
          simp only [scanAt, nlmsghdrSize] at hsize ⊢
          omega
      · obtain ⟨r, hleave⟩ := (ackRound_end hlen hle hwhole).1
        rw [hleave] at hnext
        cases hnext

section Sample

omit [Platform]

/-- A message of 17 bytes that is not the acknowledgement, without its padding: the scan goes
on 3 bytes past the reply. -/
theorem not_scans_inside : ¬ ∀ (b : Buffer) (sequence : ℕ), b.content.length ≤ 4096 →
    @ScansInside quadPlatform b sequence := by
  intro hall
  let _ := quadPlatform
  let b : Buffer := ⟨.little, [17, 0, 0, 0, 24, 0, 0, 0, 0, 0, 0, 0, 0, 0, 0, 0, 0], fun _ => 0⟩
  have hwhole : Whole b 0 := by decide
  have hpast :=
    (ends_of_boundary (by decide) (hall b 1 (by decide)) (.skip .first hwhole (by decide))).1
  exact absurd hpast (by decide)

/-- A reply with a message of 17 bytes for somebody else, which is padded, and the
acknowledgement. -/
def sampleReply : Buffer :=
  ⟨.little, [17, 0, 0, 0, 24, 0, 0, 0, 7, 0, 0, 0, 0, 0, 0, 0, 2, 0, 0, 0] ++
    [36, 0, 0, 0, 2, 0, 0, 0, 1, 0, 0, 0, 0, 0, 0, 0, 0, 0, 0, 0, 52, 0, 0, 0, 24, 0, 5, 6, 1, 0,
      0, 0, 0, 0, 0, 0],
    fun _ => 255⟩

/-- The scan goes over the first message to the second. -/
theorem scan_inside_iff_sampleReply : sampleReply.content.length = 56 ∧ Boundary sampleReply 1 20 ∧
    @ScansInside quadPlatform sampleReply 1 := by
  let _ := quadPlatform
  have hfirst : Whole sampleReply 0 ∧ ¬ IsAck sampleReply 1 0 := by decide
  have hsecond : IsAck sampleReply 1 20 := by decide
  have hboth : ∀ header, Boundary sampleReply 1 header → header = 0 ∨ header = 20 := by
    intro header hboundary
    induction hboundary with
    | first => exact Or.inl rfl
    | skip _ _ hother ih =>
      rcases ih with rfl | rfl
      · exact Or.inr (by decide)
      · exact absurd hsecond hother
  refine ⟨rfl, .skip .first hfirst.1 hfirst.2,
    (scan_inside_iff (by decide)).mpr fun header hboundary _ => ?_⟩
  rcases hboth header hboundary with rfl | rfl
  · rw [if_neg hfirst.2]
    decide
  · rw [if_pos hsecond]
    decide

end Sample

end IpRouter.Netlink
