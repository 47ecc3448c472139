import Spice.Lib.Run
import Mathlib.Data.List.Basic
import Mathlib.Tactic.Ring
import Mathlib.Tactic.Linarith

namespace Spice
namespace Decoder

open Lib

/-!
# Decoding at the client

The display channels of a client hand their H.264 messages to one function, which keeps
the decoder and the size of the last frame in static variables.  A decoder is made when
the size changes, whatever channel the message is from.

The decoder library is arbitrary: a message carries what every call to it returns, and
its copy and its colour conversion are parameters, of which only the documented contract
is known.  A failure ends in an assertion; whether it aborts depends on how the logging is
set up.
-/

/-- A plane of a picture: where it starts, the bytes of a row and the number of rows. -/
structure Plane where
  offset : Nat
  stride : Nat
  rows : Nat
deriving DecidableEq, Repr

/-- The library: `AV_PIX_FMT_YUV420P`, `av_image_get_buffer_size`, the planes that `av_image_copy_to_buffer` writes
into a buffer of some size unless it fails, and the rows that `sws_scale` reads of a plane of a picture in yuv420p. -/
structure Ffmpeg (Format : Type) where
  yuv420p : Format
  bufferSize : Format -> Nat -> Nat -> Int
  copyToBuffer : Format -> Nat -> Nat -> Int -> Option (List Plane)
  rowsRead : Nat -> Nat -> Nat

/-- What the library documents: a copy fails if the buffer is smaller than a picture needs, and stays within what the
picture needs.  A size that it refuses is a negative number of bytes.  A picture in yuv420p of an even size has a plane
of all pixels, then two of a quarter of them, without padding, and all of their rows are read. -/
structure Ffmpeg.Documented {Format : Type} (ffmpeg : Ffmpeg Format) : Prop where
  fits : forall format width height size planes, ffmpeg.copyToBuffer format width height size = some planes ->
    ffmpeg.bufferSize format width height ≤ size
  within : forall format width height size planes, ffmpeg.copyToBuffer format width height size = some planes ->
    forall plane, plane ∈ planes ->
      ((plane.offset + plane.stride * plane.rows : Nat) : Int) ≤ ffmpeg.bufferSize format width height
  size : forall width height, width % 2 = 0 -> height % 2 = 0 -> 0 ≤ ffmpeg.bufferSize ffmpeg.yuv420p width height ->
    ffmpeg.bufferSize ffmpeg.yuv420p width height = (width * height + 2 * (width / 2 * (height / 2)) : Nat)
  copies : forall width height size, width % 2 = 0 -> height % 2 = 0 ->
    0 ≤ ffmpeg.bufferSize ffmpeg.yuv420p width height -> ffmpeg.bufferSize ffmpeg.yuv420p width height ≤ size ->
    ffmpeg.copyToBuffer ffmpeg.yuv420p width height size = some
      [{ offset := 0, stride := width, rows := height },
        { offset := width * height, stride := width / 2, rows := height / 2 },
        { offset := width * height + width / 2 * (height / 2), stride := width / 2, rows := height / 2 }]
  reads : forall height, height % 2 = 0 ->
    ffmpeg.rowsRead 0 height = height ∧ ffmpeg.rowsRead 1 height = height / 2 ∧ ffmpeg.rowsRead 2 height = height / 2

/-- The result of `avcodec_decode_video2`, with the format and the size in the context afterwards. -/
inductive Decoded (Format : Type)
  | failed
  | noFrame
  | frame (format : Format) (width height : Nat)
deriving DecidableEq, Repr

/-- A message of a channel, and what the calls for it return. -/
structure Message (Format : Type) where
  channel : Nat
  width : Nat
  height : Nat
  payload : Nat
  rgbAllocated : Bool
  opened : Bool
  frameAllocated : Bool
  yuvAllocated : Bool
  decoded : Decoded Format
  scaled : Bool
  surfaceFound : Bool
deriving DecidableEq, Repr

/-- `AVCodecContext`: who it was made for, after how many messages, and the payloads it was given. -/
structure AVCodecContext where
  channel : Nat
  width : Nat
  height : Nat
  since : Nat
  seen : List Nat
deriving DecidableEq, Repr

/-- The static variables of `h264_decode`, and the number of messages so far. -/
structure Client where
  ctx : Option AVCodecContext
  fr : Bool
  lastWidth : Nat
  lastHeight : Nat
  handled : Nat
deriving DecidableEq, Repr

/-- `yuv_size`, an `int`. -/
def yuvSize (width height : Nat) : Int := (Int.bmod (3 * width * height) (2 ^ 32)).tdiv 2

section Decoding

variable {Format : Type} (ffmpeg : Ffmpeg Format)

/-- The planes that `yuv2rgb` reads. -/
def readPlanes (width height : Nat) : List Plane :=
  [{ offset := 0, stride := width, rows := ffmpeg.rowsRead 0 height },
    { offset := width * height, stride := width / 2, rows := ffmpeg.rowsRead 1 height },
    { offset := width * height + width * height / 4, stride := width / 2, rows := ffmpeg.rowsRead 2 height }]

namespace Client

variable (client : Client)

/-- The start of `h264_decode`: the decoder is made again when the size changes.  The second component is whether
all went well. -/
def prepare (message : Message Format) : Client × Bool :=
  if message.width ≠ client.lastWidth ∨ message.height ≠ client.lastHeight then
    let freed := { client with ctx := none, fr := false }
    if message.opened then
      let ctx : AVCodecContext :=
        { channel := message.channel, width := message.width, height := message.height
          since := client.handled, seen := [] }
      let made := { freed with ctx := some ctx }
      if message.frameAllocated then
        ({ made with fr := true, lastWidth := message.width, lastHeight := message.height }, true)
      else (made, false)
    else (freed, false)
  else (client, true)

/-- The planes that `av_image_copy_to_buffer` writes for the result, unless it fails. -/
def copied (message : Message Format) : Option (List Plane) :=
  match message.decoded with
  | .frame format width height =>
      ffmpeg.copyToBuffer format width height (yuvSize message.width message.height)
  | _ => none

/-- Whether `av_image_copy_to_buffer` and `yuv2rgb` succeed. -/
def converts (message : Message Format) : Bool := (copied ffmpeg message).isSome && message.scaled

/-- `h264_decode`: the client afterwards and whether there is a picture.  Without a decoder or a frame the library
is given a null pointer. -/
def h264Decode (message : Message Format) : Option (Client × Bool) :=
  let ready := client.prepare message
  if ready.2 = true then
    if message.yuvAllocated then
      match ready.1.ctx with
      | none => none
      | some ctx =>
          if ready.1.fr = true then
            some ({ ready.1 with ctx := some { ctx with seen := ctx.seen ++ [message.payload] } },
              converts ffmpeg message)
          else none
    else some (ready.1, false)
  else some (ready.1, false)

/-- `display_handle_h264_data`.  A failure is an assertion. -/
def displayHandleH264Data (aborts : Bool) (message : Message Format) : Option Client :=
  let decoded := if message.rgbAllocated then client.h264Decode ffmpeg message else some (client, false)
  decoded.bind (fun result =>
    if result.2 && message.surfaceFound then some { result.1 with handled := client.handled + 1 }
    else if aborts then none
    else some { result.1 with handled := client.handled + 1 })

def init : Client where
  ctx := none
  fr := false
  lastWidth := 0
  lastHeight := 0
  handled := 0

end Client

/-- The message is handled without mixing channels: its payload is given to a decoder that was made for its channel
and size and that was given the payloads of this channel since; the picture is written into the buffer, and read
where it was written; and the client goes on, whether the frame is decoded or not. -/
structure KeepsApart (aborts : Bool) (past : List (Message Format)) (client : Client) (message : Message Format) :
    Prop where
  decoder : forall ctx, (client.prepare message).1.ctx = some ctx -> (client.prepare message).2 = true ->
    ctx.channel = message.channel ∧ ctx.width = message.width ∧ ctx.height = message.height ∧
      ctx.seen = (((past.drop ctx.since).filter (fun other => other.channel = message.channel)).map Message.payload)
  exists_decoder : (client.prepare message).2 = true ->
    (client.prepare message).1.ctx ≠ none ∧ (client.prepare message).1.fr = true
  inside : forall planes, Client.copied ffmpeg message = some planes -> forall plane, plane ∈ planes ->
    ((plane.offset + plane.stride * plane.rows : Nat) : Int) ≤ yuvSize message.width message.height
  offsets : forall planes, Client.copied ffmpeg message = some planes ->
    readPlanes ffmpeg message.width message.height = planes
  goesOn : (client.displayHandleH264Data ffmpeg aborts message).isSome = true

/-- A frame that the function handles well: all calls succeed and the picture has the size of the message, which is
even; and when the message before has the same size, it is from the same channel. -/
structure Decodes (past : List (Message Format)) (message : Message Format) : Prop where
  first : past.getLast? = none -> Not (message.width = 0 ∧ message.height = 0)
  apart : forall last, past.getLast? = some last -> last.width = message.width -> last.height = message.height ->
    last.channel = message.channel
  made : (forall last, past.getLast? = some last ->
      Not (last.width = message.width ∧ last.height = message.height)) ->
    message.opened = true ∧ message.frameAllocated = true
  allocated : message.rgbAllocated = true ∧ message.yuvAllocated = true
  picture : message.decoded = .frame ffmpeg.yuv420p message.width message.height
  even : message.width % 2 = 0 ∧ message.height % 2 = 0
  accepted : 0 ≤ ffmpeg.bufferSize ffmpeg.yuv420p message.width message.height
  small : 3 * message.width * message.height < 2 ^ 31
  shown : message.scaled = true ∧ message.surfaceFound = true

/-! ## The planes of a picture -/

theorem quarter {width height : Nat} (evenWidth : width % 2 = 0) (evenHeight : height % 2 = 0) :
    width / 2 * (height / 2) = width * height / 4 := by
  obtain ⟨halfWidth, rfl⟩ : Exists fun half => width = 2 * half := ⟨width / 2, by omega⟩
  obtain ⟨halfHeight, rfl⟩ : Exists fun half => height = 2 * half := ⟨height / 2, by omega⟩
  rw [Nat.mul_div_cancel_left _ two_pos, Nat.mul_div_cancel_left _ two_pos,
    show 2 * halfWidth * (2 * halfHeight) = 4 * (halfWidth * halfHeight) by ring, Nat.mul_div_cancel_left _ four_pos]

theorem yuvSize_eq {width height half : Nat} (isHalf : 3 * width * height = 2 * half)
    (small : 3 * width * height < 2 ^ 31) : yuvSize width height = half := by
  have cast : (3 * (width : Int) * (height : Int)) = 2 * (half : Int) := by exact_mod_cast isHalf
  have same : Int.bmod (2 * (half : Int)) (2 ^ 32) = 2 * (half : Int) := by
    apply Int.bmod_eq_of_le
    · omega
    · omega
  unfold yuvSize
  rw [cast, same, Int.mul_tdiv_cancel_left _ (by decide)]

variable {ffmpeg}

/-- The buffer of `h264_decode` is as large as a picture in yuv420p of an even size. -/
theorem Ffmpeg.Documented.bufferSize_le (documented : ffmpeg.Documented) {width height : Nat}
    (evenWidth : width % 2 = 0) (evenHeight : height % 2 = 0)
    (accepted : 0 ≤ ffmpeg.bufferSize ffmpeg.yuv420p width height) (small : 3 * width * height < 2 ^ 31) :
    ffmpeg.bufferSize ffmpeg.yuv420p width height ≤ yuvSize width height := by
  rw [documented.size width height evenWidth evenHeight accepted]
  obtain ⟨halfWidth, rfl⟩ : Exists fun half => width = 2 * half := ⟨width / 2, by omega⟩
  obtain ⟨halfHeight, rfl⟩ : Exists fun half => height = 2 * half := ⟨height / 2, by omega⟩
  have product : 3 * (2 * halfWidth) * (2 * halfHeight) = 2 * (6 * (halfWidth * halfHeight)) := by ring
  have size : 2 * halfWidth * (2 * halfHeight) + 2 * (2 * halfWidth / 2 * (2 * halfHeight / 2)) =
      6 * (halfWidth * halfHeight) := by
    rw [Nat.mul_div_cancel_left _ two_pos, Nat.mul_div_cancel_left _ two_pos]
    ring
  rw [size, yuvSize_eq product small]

/-- The planes of such a picture are written where `yuv2rgb` reads them. -/
theorem Ffmpeg.Documented.copyToBuffer_eq (documented : ffmpeg.Documented) {width height : Nat}
    (evenWidth : width % 2 = 0) (evenHeight : height % 2 = 0)
    (accepted : 0 ≤ ffmpeg.bufferSize ffmpeg.yuv420p width height) (small : 3 * width * height < 2 ^ 31) :
    ffmpeg.copyToBuffer ffmpeg.yuv420p width height (yuvSize width height) = some (readPlanes ffmpeg width height) := by
  have large := documented.bufferSize_le evenWidth evenHeight accepted small
  rcases documented.reads height evenHeight with ⟨luma, first, second⟩
  rw [documented.copies width height _ evenWidth evenHeight accepted large]
  simp only [readPlanes, luma, first, second, quarter evenWidth evenHeight]

/-! ## The decoder of a channel -/

/-- The decoder that a message is given to. -/
structure Ready (past : List (Message Format)) (message : Message Format) (client : Client)
    (ctx : AVCodecContext) : Prop where
  isCtx : client.ctx = some ctx
  fr : client.fr = true
  handled : client.handled = past.length
  channel : ctx.channel = message.channel
  size : ctx.width = message.width ∧ ctx.height = message.height
  remembered : client.lastWidth = message.width ∧ client.lastHeight = message.height
  since : ctx.since ≤ past.length
  seen : ctx.seen = (past.drop ctx.since).map Message.payload
  own : forall other, other ∈ past.drop ctx.since -> other.channel = message.channel

/-- Between two messages the decoder is that of the last one, or there is none yet. -/
def Between (past : List (Message Format)) (client : Client) : Prop :=
  match past.getLast? with
  | none => client = Client.init ∧ past = []
  | some last => Exists fun ctx => Ready past last client ctx

variable {past : List (Message Format)} {client : Client} {message : Message Format}

theorem Decodes.copied (decodes : Decodes ffmpeg past message) (documented : ffmpeg.Documented) :
    Client.copied ffmpeg message = some (readPlanes ffmpeg message.width message.height) := by
  rw [Client.copied, decodes.picture]
  exact documented.copyToBuffer_eq decodes.even.1 decodes.even.2 decodes.accepted decodes.small

theorem Decodes.converts (decodes : Decodes ffmpeg past message) (documented : ffmpeg.Documented) :
    Client.converts ffmpeg message = true := by
  rw [Client.converts, decodes.copied documented, decodes.shown.1]
  rfl

theorem prepare_new (handled : client.handled = past.length)
    (changed : message.width ≠ client.lastWidth ∨ message.height ≠ client.lastHeight)
    (opened : message.opened = true) (frameAllocated : message.frameAllocated = true) :
    (client.prepare message).2 = true ∧ Exists fun ctx => Ready past message (client.prepare message).1 ctx := by
  simp only [Client.prepare, if_pos changed, opened, frameAllocated, if_true]
  refine ⟨trivial, _, rfl, rfl, handled, rfl, ⟨rfl, rfl⟩, ⟨rfl, rfl⟩, handled.le, ?_, ?_⟩
  · simp [handled]
  · simp [handled]

/-- A message of the same size finds its decoder. -/
theorem prepare_same {last : Message Format} {ctx : AVCodecContext} (ready : Ready past last client ctx)
    (width : last.width = message.width) (height : last.height = message.height)
    (channel : last.channel = message.channel) :
    (client.prepare message).2 = true ∧ Exists fun ctx => Ready past message (client.prepare message).1 ctx := by
  have same : Not (message.width ≠ client.lastWidth ∨ message.height ≠ client.lastHeight) := by
    rw [ready.remembered.1, ready.remembered.2, width, height]
    simp
  rw [Client.prepare, if_neg same]
  refine ⟨rfl, ctx, { ready with channel := ?_, size := ?_, remembered := ?_, own := ?_ }⟩
  · rw [<- channel, ready.channel]
  · rw [<- width, <- height]
    exact ready.size
  · rw [<- width, <- height]
    exact ready.remembered
  · rw [<- channel]
    exact ready.own

/-- Before the decoding there is a decoder of the size of the message. -/
theorem Decodes.prepare (decodes : Decodes ffmpeg past message) (between : Between past client) :
    (client.prepare message).2 = true ∧ Exists fun ctx => Ready past message (client.prepare message).1 ctx := by
  unfold Between at between
  cases isLast : past.getLast? with
  | none =>
      rw [isLast] at between
      rcases between with ⟨rfl, rfl⟩
      have made := decodes.made (fun last isSome => by cases isSome)
      refine prepare_new rfl ?_ made.1 made.2
      have notEmpty := decodes.first rfl
      rw [not_and_or] at notEmpty
      exact notEmpty
  | some last =>
      rw [isLast] at between
      rcases between with ⟨ctx, ready⟩
      by_cases same : last.width = message.width ∧ last.height = message.height
      · exact prepare_same ready same.1 same.2 (decodes.apart last isLast same.1 same.2)
      · have made := decodes.made (fun other isOther => by
          rw [isLast] at isOther
          cases isOther
          exact same)
        refine prepare_new ready.handled ?_ made.1 made.2
        rw [ready.remembered.1, ready.remembered.2]
        rw [not_and_or] at same
        exact same.imp (fun different isSame => different isSame.symm)
          (fun different isSame => different isSame.symm)

theorem prepare_handled (client : Client) (message : Message Format) :
    (client.prepare message).1.handled = client.handled := by
  unfold Client.prepare
  dsimp only
  split
  · split
    · split
      · rfl
      · rfl
    · rfl
  · rfl

/-- A good frame is decoded, shown and kept apart from the other channels. -/
theorem Decodes.handle (decodes : Decodes ffmpeg past message) (documented : ffmpeg.Documented)
    (between : Between past client) (aborts : Bool) :
    Exists fun next => client.displayHandleH264Data ffmpeg aborts message = some next ∧
      Between (past ++ [message]) next := by
  rcases decodes.prepare between with ⟨prepared, ctx, ready⟩
  refine ⟨{ (client.prepare message).1 with
    ctx := some { ctx with seen := ctx.seen ++ [message.payload] }, handled := client.handled + 1 }, ?_, ?_⟩
  · simp only [Client.displayHandleH264Data, Client.h264Decode, decodes.allocated.1, decodes.allocated.2, prepared,
      if_true, ready.isCtx, ready.fr, decodes.converts documented, decodes.shown.2, Option.bind_some, Bool.and_self]
  · have handled := ready.handled
    rw [prepare_handled] at handled
    have isDrop : (past ++ [message]).drop ctx.since = past.drop ctx.since ++ [message] :=
      List.drop_append_of_le_length ready.since
    unfold Between
    rw [List.getLast?_concat]
    refine ⟨_, rfl, ready.fr, ?_, ready.channel, ready.size, ready.remembered, ?_, ?_, ?_⟩
    · simp [handled]
    · simpa using Nat.le_succ_of_le ready.since
    · simp only [isDrop, ready.seen, List.map_append, List.map_cons, List.map_nil]
    · intro other member
      rw [isDrop, List.mem_append, List.mem_singleton] at member
      rcases member with isOld | isNew
      · exact ready.own other isOld
      · rw [isNew]

theorem Decodes.keepsApart (decodes : Decodes ffmpeg past message) (documented : ffmpeg.Documented)
    (between : Between past client) (aborts : Bool) : KeepsApart ffmpeg aborts past client message := by
  rcases decodes.prepare between with ⟨_, ready, isReady⟩
  constructor
  case decoder =>
    intro ctx isCtx _
    rw [isReady.isCtx] at isCtx
    cases isCtx
    refine ⟨isReady.channel, isReady.size.1, isReady.size.2, ?_⟩
    have own : (past.drop ready.since).filter (fun other => other.channel = message.channel) = past.drop ready.since :=
      List.filter_eq_self.mpr (fun other member => decide_eq_true (isReady.own other member))
    rw [own, isReady.seen]
  case exists_decoder =>
    intro _
    rw [isReady.isCtx]
    exact ⟨Option.some_ne_none ready, isReady.fr⟩
  case inside =>
    intro planes isCopied plane member
    have picture := isCopied
    rw [Client.copied, decodes.picture] at picture
    exact (documented.within _ _ _ _ planes picture plane member).trans (documented.fits _ _ _ _ planes picture)
  case offsets =>
    intro planes isCopied
    rw [decodes.copied documented] at isCopied
    exact Option.some.inj isCopied
  case goesOn =>
    rcases decodes.handle documented between aborts with ⟨next, stepped, _⟩
    rw [stepped]
    rfl

/-- In every run whose messages are decoded well and in which messages of one size that follow each other are from one
channel, no message mixes channels. -/
theorem h264_channels_kept_apart (documented : ffmpeg.Documented) (aborts : Bool) (messages : List (Message Format))
    (meets : Meets (Client.displayHandleH264Data ffmpeg · aborts)
      (fun past _ message => Decodes ffmpeg past message) [] Client.init messages)
    (before after : List (Message Format)) (message : Message Format)
    (isSplit : messages = before ++ message :: after) :
    Exists fun client => run (Client.displayHandleH264Data ffmpeg · aborts) Client.init before = some client ∧
      KeepsApart ffmpeg aborts before client message := by
  subst isSplit
  have keep : forall (past : List (Message Format)) (client : Client) (message : Message Format), Between past client ->
      Decodes ffmpeg past message -> Exists fun next => client.displayHandleH264Data ffmpeg aborts message = some next ∧
        Between (past ++ [message]) next :=
    fun _ _ _ between decodes => decodes.handle documented between aborts
  rcases run_keeps keep before [] Client.init ⟨rfl, rfl⟩ meets.of_append with ⟨client, ran, between⟩
  exact ⟨client, ran, (meets.rest ran).1.keepsApart documented between aborts⟩

end Decoding

/-- Half of a size, rounded up. -/
def halved (size : Nat) : Nat := (size + 1) / 2

/-- A library with the one format, which rounds an odd size of a chroma plane up. -/
def onlyYuv420p : Ffmpeg Unit where
  yuv420p := ()
  bufferSize := fun _ width height => (width * height + 2 * (halved width * halved height) : Nat)
  copyToBuffer := fun _ width height size =>
    if ((width * height + 2 * (halved width * halved height) : Nat) : Int) ≤ size then some
      [{ offset := 0, stride := width, rows := height },
        { offset := width * height, stride := halved width, rows := halved height },
        { offset := width * height + halved width * halved height, stride := halved width, rows := halved height }]
    else none
  rowsRead := fun plane height => if plane = 0 then height else halved height

theorem halved_even {size : Nat} (even : size % 2 = 0) : halved size = size / 2 := by
  unfold halved
  omega

/-- The format of the witness behaves as documented. -/
theorem onlyYuv420p_documented : onlyYuv420p.Documented := by
  constructor
  case fits =>
    intro _ width height size planes copied
    exact (Option.ite_none_right_eq_some.mp copied).1
  case within =>
    intro _ width height size planes copied plane member
    have isPlanes := (Option.ite_none_right_eq_some.mp copied).2
    cases isPlanes
    refine Int.ofNat_le.mpr ?_
    simp only [List.mem_cons, List.not_mem_nil, or_false] at member
    rcases member with rfl | rfl | rfl
    · simp only
      omega
    · simp only
      omega
    · simp only
      omega
  case size =>
    intro width height evenWidth evenHeight _
    simp only [onlyYuv420p, halved_even evenWidth, halved_even evenHeight]
  case copies =>
    intro width height size evenWidth evenHeight _ large
    simp only [onlyYuv420p] at large ⊢
    rw [if_pos large, halved_even evenWidth, halved_even evenHeight]
  case reads =>
    intro height even
    simp only [onlyYuv420p, halved_even even]
    exact ⟨rfl, rfl, rfl⟩

def goodFrame (channel width height payload : Nat) : Message Unit where
  channel := channel
  width := width
  height := height
  payload := payload
  rgbAllocated := true
  opened := true
  frameAllocated := true
  yuvAllocated := true
  decoded := .frame () width height
  scaled := true
  surfaceFound := true

theorem goodFrame_decodes {past : List (Message Unit)} {channel width height payload : Nat}
    (notEmpty : Not (width = 0 ∧ height = 0))
    (apart : forall last, past.getLast? = some last -> last.width = width -> last.height = height ->
      last.channel = channel)
    (even : width % 2 = 0 ∧ height % 2 = 0) (small : 3 * width * height < 2 ^ 31) :
    Decodes onlyYuv420p past (goodFrame channel width height payload) where
  first := fun _ => notEmpty
  apart := apart
  made := fun _ => ⟨rfl, rfl⟩
  allocated := ⟨rfl, rfl⟩
  picture := rfl
  even := even
  accepted := Int.natCast_nonneg _
  small := small
  shown := ⟨rfl, rfl⟩

/-- Two channels with frames of different sizes. -/
theorem h264_channels_kept_apart_two : Exists fun client =>
    run (Client.displayHandleH264Data onlyYuv420p · true) Client.init [goodFrame 1 640 480 0, goodFrame 2 800 600 0] =
      some client ∧
      KeepsApart onlyYuv420p true [goodFrame 1 640 480 0, goodFrame 2 800 600 0] client (goodFrame 2 800 600 1) := by
  refine h264_channels_kept_apart onlyYuv420p_documented true
    [goodFrame 1 640 480 0, goodFrame 2 800 600 0, goodFrame 2 800 600 1] ?_ _ [] _ rfl
  refine ⟨goodFrame_decodes (by decide) (fun last isLast => by cases isLast) (by decide) (by decide), fun _ _ => ?_⟩
  refine ⟨goodFrame_decodes (by decide) (fun last isLast width => ?_) (by decide) (by decide), fun _ _ => ?_⟩
  · cases isLast
    cases width
  refine ⟨goodFrame_decodes (by decide) (fun last isLast _ _ => ?_) (by decide) (by decide), fun _ _ => trivial⟩
  cases isLast
  rfl

/-- A frame of a second channel is given to the decoder of the first one, and a frame that is not
decoded ends the client. -/
theorem shared_decoder_mixes_channels :
    (forall aborts, Exists fun client =>
      run (Client.displayHandleH264Data onlyYuv420p · aborts) Client.init [goodFrame 1 640 480 0] = some client ∧
        Not (KeepsApart onlyYuv420p aborts [goodFrame 1 640 480 0] client (goodFrame 2 640 480 1))) ∧
      Not (KeepsApart onlyYuv420p true [] Client.init { goodFrame 1 640 480 0 with decoded := .failed }) := by
  refine ⟨fun aborts => ?_, fun apart => ?_⟩
  · have ran : run (Client.displayHandleH264Data onlyYuv420p · aborts) Client.init [goodFrame 1 640 480 0] = some
        { ctx := some { channel := 1, width := 640, height := 480, since := 0, seen := [0] }, fr := true
          lastWidth := 640, lastHeight := 480, handled := 1 } := by
      cases aborts <;> decide +kernel
    refine ⟨_, ran, fun apart => ?_⟩
    have channels := (apart.decoder _ rfl rfl).1
    cases channels
  · have goesOn := apart.goesOn
    revert goesOn
    decide +kernel

end Decoder
end Spice
