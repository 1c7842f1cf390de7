import Qualigence.Desktop.PipeClient
import Qualigence.Foundation.Framing
import Qualigence.Foundation.Program

/-! # Responses in chunks

A socket gives the bytes of the response frames in chunks of any length. The responses are delivered
as if they had come frame by frame, as long as no chunk takes the bytes that are buffered over their
bound: the bound is on the chunk and the unfinished frame before it, and not on what is left when
the frames in them are read.
-/

namespace Qualigence.Desktop.Companion

open Protocol Foundation

/-! ## Frames -/

theorem readUInt32BE_write {n : ℕ} (h : n < 2 ^ 32) (rest : List UInt8) :
    readUInt32BE (writeUInt32BE n ++ rest) = n := by
  simp only [writeUInt32BE, List.cons_append, List.nil_append, readUInt32BE, UInt8.toNat_ofNat']
  omega

theorem length_frameOf (body : List UInt8) : (frameOf body).length = body.length + 4 := by
  rw [frameOf, List.length_append, Nat.add_comm]
  rfl

theorem assertDeclaredFrameLength_ok_iff {n : ℕ} :
    assertDeclaredFrameLength n = .ok () ↔ 0 < n ∧ n ≤ maxFrameBytes := by
  unfold assertDeclaredFrameLength refuse
  split
  · simp; omega
  · split
    · simp; omega
    · simp; omega

/-- A body that may be sent in one frame. -/
structure FrameBody (o : PipeClientOptions) (body : List UInt8) : Prop where
  declared : 0 < body.length ∧ body.length ≤ maxFrameBytes
  configured : body.length ≤ o.maxFrameBytes

section Frames

variable {o : PipeClientOptions} {body : List UInt8}

/-- Bytes that begin with the header of a frame. -/
theorem nextFrame_header (h : FrameBody o body) {buffered tail : List UInt8}
    (hb : buffered = writeUInt32BE body.length ++ tail) :
    nextFrame o buffered = if tail.length < body.length then .wait
      else .frame (tail.take body.length) (tail.drop body.length) := by
  have hlt : body.length < 2 ^ 32 := Nat.lt_of_le_of_lt h.declared.2 (by decide)
  have hlength : buffered.length = tail.length + 4 := by
    rw [hb, List.length_append, Nat.add_comm]
    rfl
  have hread : readUInt32BE buffered = body.length := by rw [hb, readUInt32BE_write hlt]
  have hdrop : buffered.drop 4 = tail := by rw [hb]; rfl
  have hnot : ¬ o.maxFrameBytes < body.length := Nat.not_lt.mpr h.configured
  unfold nextFrame
  rw [if_neg (by omega)]
  dsimp only
  rw [hread, assertDeclaredFrameLength_ok_iff.mpr h.declared]
  dsimp only
  rw [if_neg hnot, ← List.drop_drop, hdrop, hlength]
  simp only [Nat.add_lt_add_iff_right]

theorem nextFrame_frameOf (h : FrameBody o body) (tail : List UInt8) :
    nextFrame o (frameOf body ++ tail) = .frame body tail := by
  have hb : frameOf body ++ tail = writeUInt32BE body.length ++ (body ++ tail) := by
    rw [frameOf, List.append_assoc]
  rw [nextFrame_header h hb, if_neg (by simp), List.take_left, List.drop_left]

/-- A part of a frame is waited for. -/
theorem nextFrame_part (h : FrameBody o body) {part later rest : List UInt8}
    (hpart : part.length < (frameOf body).length) (he : part ++ later = frameOf body ++ rest) :
    nextFrame o part = .wait := by
  by_cases hshort : part.length < 4
  · unfold nextFrame
    rw [if_pos hshort]
  · have hheader : part = writeUInt32BE body.length ++ part.drop 4 := by
      have ht := congrArg (List.take 4) he
      rw [List.take_append_of_le_length (by omega), frameOf, List.append_assoc] at ht
      have hfour : List.take 4 (writeUInt32BE body.length ++ (body ++ rest)) =
          writeUInt32BE body.length := List.take_left' rfl
      rw [hfour] at ht
      rw [← ht, List.take_append_drop]
    rw [length_frameOf] at hpart
    rw [nextFrame_header h hheader, if_pos (by rw [List.length_drop]; omega)]

end Frames

/-! ## Deliveries -/

namespace NamedPipeCompanionClient

section Library

variable (L : PipeLibrary) (o : PipeClientOptions)

/-- The responses in the bodies, one after the other. -/
def deliverAll (c : NamedPipeCompanionClient) :
    List (List UInt8) → Except CompanionThrown NamedPipeCompanionClient
  | [] => .ok c
  | body :: bodies => do
    let delivered ← acceptResponseFrame L c body
    deliverAll delivered bodies

/-- The chunks that a socket emits, one after the other. -/
def receive (c : NamedPipeCompanionClient) (socket : ℕ) (chunks : List (List UInt8)) :
    NamedPipeCompanionClient :=
  chunks.foldl (fun c chunk => next L o c (.data socket chunk)) c

/-- Frames within the limits, whose responses are answers to pending requests that do not stop the
connection. -/
structure ValidFrames (c : NamedPipeCompanionClient) (bodies : List (List UInt8)) : Prop where
  frames : ∀ body ∈ bodies, FrameBody o body
  answers : ∃ delivered, deliverAll L c bodies = .ok delivered ∧ delivered.socket = c.socket

end Library

variable {L : PipeLibrary} {o : PipeClientOptions} {c c' : NamedPipeCompanionClient}

def withBuffered (c : NamedPipeCompanionClient) (bytes : List UInt8) : NamedPipeCompanionClient :=
  { c with buffered := bytes }

/-- A response leaves the connection as it is, or stops it. -/
theorem deliverResponse_cases {response : CompanionResponse}
    (h : c.deliverResponse response = .ok c') :
    c'.socket = none ∨ (c'.socket = c.socket ∧ c'.buffered = c.buffered ∧ ∀ bytes,
      (c.withBuffered bytes).deliverResponse response = .ok (c'.withBuffered bytes)) := by
  unfold deliverResponse at h
  cases hp : c.pendingFor response.requestId with
  | none =>
    rw [hp] at h
    cases h
  | some entry =>
    have hp' (bytes : List UInt8) :
        (c.withBuffered bytes).pendingFor response.requestId = some entry := hp
    rw [hp] at h
    dsimp only at h
    by_cases ht : response.type ≠ entry.expectedResponseType
    · rw [if_pos ht] at h
      cases h
    · rw [if_neg ht] at h
      cases hbody : response.body with
      | ok payload =>
        rw [hbody] at h
        obtain rfl := Except.ok.inj h
        refine .inr ⟨rfl, rfl, fun bytes => ?_⟩
        unfold deliverResponse
        rw [hp' bytes]
        dsimp only
        rw [if_neg ht, hbody]
        rfl
      | error error =>
        rw [hbody] at h
        obtain rfl := Except.ok.inj h
        cases hcode : protocolCode error.code with
        | some mapped =>
          left
          rw [deliverError, hcode]
          rfl
        | none =>
          by_cases hs : entry.failStopOnFailure
          · left
            rw [deliverError, hcode]
            dsimp only
            rw [if_pos hs]
            rfl
          · right
            have hsettled (c : NamedPipeCompanionClient) : c.deliverError entry response error =
                c.settle entry (some response) (.rejected (.response error entry.outcomeUnknown)) := by
              rw [deliverError, hcode]
              dsimp only
              rw [if_neg hs]
            rw [hsettled]
            refine ⟨rfl, rfl, fun bytes => ?_⟩
            unfold deliverResponse
            rw [hp' bytes]
            dsimp only
            rw [if_neg ht, hbody]
            dsimp only
            rw [hsettled]
            rfl

theorem acceptResponseFrame_cases {body : List UInt8} (h : acceptResponseFrame L c body = .ok c') :
    c'.socket = none ∨ (c'.socket = c.socket ∧ c'.buffered = c.buffered ∧ ∀ bytes,
      acceptResponseFrame L (c.withBuffered bytes) body = .ok (c'.withBuffered bytes)) := by
  obtain ⟨response, hr, hd⟩ := bind_eq_ok.mp h
  rcases deliverResponse_cases hd with hnone | ⟨hs, hb, hcomm⟩
  · exact .inl hnone
  · refine .inr ⟨hs, hb, fun bytes => ?_⟩
    unfold acceptResponseFrame
    rw [hr, ok_bind, hcomm]

/-- A connection that is stopped stays stopped. -/
theorem socket_deliverAll {bodies : List (List UInt8)} (h : deliverAll L c bodies = .ok c') :
    c'.socket = none ∨ c'.socket = c.socket := by
  induction bodies generalizing c with
  | nil => exact .inr (congrArg socket (Except.ok.inj h).symm)
  | cons body bodies ih =>
    obtain ⟨delivered, ha, hd⟩ := bind_eq_ok.mp h
    rcases ih hd with hnone | hs
    · exact .inl hnone
    · rcases acceptResponseFrame_cases ha with hnone | ⟨hsame, -, -⟩
      · exact .inl (hs.trans hnone)
      · exact .inr (hs.trans hsame)

/-- The first of some responses that do not stop the connection does not stop it either. -/
theorem accept_of_deliverAll {body : List UInt8} {bodies : List (List UInt8)} {socket : ℕ}
    (hc : c.Current socket) (h : deliverAll L c (body :: bodies) = .ok c')
    (hs : c'.socket = c.socket) :
    ∃ delivered, delivered.Current socket ∧ delivered.socket = c.socket ∧
      delivered.buffered = c.buffered ∧ deliverAll L delivered bodies = .ok c' ∧ ∀ bytes,
        acceptResponseFrame L (c.withBuffered bytes) body = .ok (delivered.withBuffered bytes) := by
  obtain ⟨delivered, ha, hd⟩ := bind_eq_ok.mp h
  have hlive : delivered.socket ≠ none := by
    intro hnone
    have hstopped : c.socket = none := by
      rcases socket_deliverAll hd with hn | hn
      · exact hs.symm.trans hn
      · exact hs.symm.trans (hn.trans hnone)
    rw [Current, hstopped] at hc
    cases hc
  rcases acceptResponseFrame_cases ha with hnone | ⟨hsame, hb, hcomm⟩
  · exact absurd hnone hlive
  · exact ⟨delivered, by rwa [Current, hsame], hsame, hb, hd, hcomm⟩

/-! ## Draining -/

theorem readFrame_of_frame {bytes body rest : List UInt8}
    (h : nextFrame o bytes = .frame body rest) :
    readFrame L o (c.withBuffered bytes) =
      some (acceptResponseFrame L (c.withBuffered rest) body) := by
  have hb : (c.withBuffered bytes).buffered = bytes := rfl
  rw [readFrame, hb, h]
  rfl

/-- The whole frames in the buffer are delivered, and what comes after them is left. -/
theorem drain_frames {bodies : List (List UInt8)} {socket : ℕ} (hc : c.Current socket)
    (hf : ∀ body ∈ bodies, FrameBody o body) {later : List (List UInt8)}
    (h : deliverAll L c (bodies ++ later) = .ok c') (hs : c'.socket = c.socket) (bytes : List UInt8) :
    ∃ delivered, delivered.Current socket ∧ delivered.socket = c.socket ∧
      delivered.buffered = c.buffered ∧ deliverAll L delivered later = .ok c' ∧
      drain L o (c.withBuffered ((bodies.map frameOf).flatten ++ bytes)) =
        drain L o (delivered.withBuffered bytes) := by
  induction bodies generalizing c with
  | nil =>
    refine ⟨c, hc, rfl, rfl, h, ?_⟩
    rw [List.map_nil, List.flatten_nil, List.nil_append]
  | cons body bodies ih =>
    obtain ⟨first, hcurrent, hsame, hb, hd, haccept⟩ := accept_of_deliverAll hc h hs
    obtain ⟨delivered, hcurrent', hsame', hb', hd', hdrain⟩ := ih hcurrent
      (fun b hb => hf b (List.mem_cons_of_mem body hb)) hd (hs.trans hsame.symm)
    refine ⟨delivered, hcurrent', hsame'.trans hsame, hb'.trans hb, hd', ?_⟩
    rw [← hdrain]
    refine drain_of_ok ?_
    rw [List.map_cons, List.flatten_cons, List.append_assoc]
    have hnext := nextFrame_frameOf (hf body List.mem_cons_self)
      ((bodies.map frameOf).flatten ++ bytes)
    rw [readFrame_of_frame hnext, haccept]

/-- The part of a frame that is left is waited for. -/
theorem drain_part {bodies : List (List UInt8)} {part later : List UInt8}
    (hf : ∀ body ∈ bodies, FrameBody o body) (hp : Partial (bodies.map frameOf) part)
    (he : part ++ later = (bodies.map frameOf).flatten) :
    drain L o (c.withBuffered part) = c.withBuffered part := by
  refine drain_of_none ?_
  unfold readFrame
  have hwait : nextFrame o part = .wait := by
    cases bodies with
    | nil =>
      have hnil : part = [] := hp
      rw [hnil]
      rfl
    | cons body bodies => exact nextFrame_part (hf body List.mem_cons_self) hp he
  rw [withBuffered, hwait]

/-! ## Chunks -/

theorem receive_of_disconnected {socket : ℕ} {chunks : List (List UInt8)} (h : c.socket = none) :
    receive L o c socket chunks = c := by
  induction chunks with
  | nil => rfl
  | cons chunk chunks ih =>
    have hnot : ¬ c.Current socket := by
      rw [Current, h]
      nofun
    rw [receive, List.foldl_cons, next, if_neg hnot]
    exact ih

theorem onData_of_over {part chunk : List UInt8}
    (h : o.maxBufferedBytes + 4 < (part ++ chunk).length) :
    (onData L o (c.withBuffered part) chunk).socket = none := by
  unfold onData
  exact congrArg socket (if_pos h)

theorem onData_of_fits {part chunk : List UInt8}
    (h : ¬ o.maxBufferedBytes + 4 < (part ++ chunk).length) :
    onData L o (c.withBuffered part) chunk = drain L o (c.withBuffered (part ++ chunk)) := by
  unfold onData
  exact if_neg h

/-- The bodies of the frames that have arrived, of the frames that have not, and the part of the
first of these. -/
theorem exists_arrived_bodies {bodies : List (List UInt8)} {bytes later : List UInt8}
    (h : bytes ++ later = (bodies.map frameOf).flatten) :
    ∃ whole rest part, bodies = whole ++ rest ∧ bytes = (whole.map frameOf).flatten ++ part ∧
      part ++ later = (rest.map frameOf).flatten ∧ Partial (rest.map frameOf) part := by
  obtain ⟨a⟩ := exists_arrived _ _ _ h
  obtain ⟨whole, rest, hbodies, hwhole, hrest⟩ := List.map_eq_append_iff.mp a.frames_eq
  exact ⟨whole, rest, a.part, hbodies, hwhole ▸ a.bytes_eq, hrest ▸ a.later_eq,
    hrest ▸ a.partial_part⟩

/-- The chunks leave the client as the responses do, one by one, exactly when they fit. -/
theorem receive_iff {socket : ℕ} {bodies chunks : List (List UInt8)} {part : List UInt8}
    (hc : c.Current socket) (hb : c.buffered = []) (hf : ∀ body ∈ bodies, FrameBody o body)
    (h : deliverAll L c bodies = .ok c') (hs : c'.socket = c.socket)
    (hp : Partial (bodies.map frameOf) part)
    (he : part ++ chunks.flatten = (bodies.map frameOf).flatten) :
    receive L o (c.withBuffered part) socket chunks = c' ↔
      FitsWithin (o.maxBufferedBytes + 4) ((bodies.map frameOf).map List.length) part.length
        chunks := by
  induction chunks generalizing c bodies part with
  | nil =>
    refine iff_of_true ?_ trivial
    cases bodies with
    | nil =>
      have hpart : part = [] := hp
      rw [hpart, ← hb]
      exact Except.ok.inj h
    | cons body bodies =>
      have hlength := congrArg List.length he
      simp only [List.flatten_nil, List.append_nil, List.map_cons, List.flatten_cons,
        List.length_append] at hlength
      have hlt : part.length < (frameOf body).length := hp
      omega
  | cons chunk chunks ih =>
    have hcurrent : (c.withBuffered part).Current socket := hc
    have hreceive : receive L o (c.withBuffered part) socket (chunk :: chunks) =
        receive L o (onData L o (c.withBuffered part) chunk) socket chunks := by
      rw [receive, List.foldl_cons, next, if_pos hcurrent]
      rfl
    have hlength : (part ++ chunk).length = part.length + chunk.length := List.length_append
    rw [hreceive, FitsWithin, unfinished_partial hp, ← hlength]
    by_cases hover : o.maxBufferedBytes + 4 < (part ++ chunk).length
    · refine iff_of_false ?_ fun hfits => absurd hfits.1 (Nat.not_le.mpr hover)
      have hstopped := onData_of_over (L := L) (c := c) hover
      rw [receive_of_disconnected hstopped]
      rintro rfl
      rw [Current, ← hs, hstopped] at hc
      cases hc
    · rw [onData_of_fits hover]
      rw [List.flatten_cons, ← List.append_assoc] at he
      obtain ⟨whole, rest, part', rfl, hbytes, hlater, hpart⟩ := exists_arrived_bodies he
      have hfw : ∀ body ∈ whole, FrameBody o body := fun b hb =>
        hf b (List.mem_append_left rest hb)
      have hfr : ∀ body ∈ rest, FrameBody o body := fun b hb =>
        hf b (List.mem_append_right whole hb)
      obtain ⟨delivered, hd, hds, hdb, hdr, hdrain⟩ := drain_frames hc hfw h hs part'
      have hih := ih hd (hdb.trans hb) hfr hdr (hs.trans hds.symm) hpart hlater
      have htotal : (part ++ chunk).length =
          ((whole.map frameOf).map List.length).sum + part'.length := by
        rw [hbytes, List.length_append, List.length_flatten]
      rw [and_iff_right (Nat.not_lt.mp hover), htotal, hbytes, hdrain,
        drain_part hfr hpart hlater, hih, List.map_append, List.map_append, fitsWithin_append]

end NamedPipeCompanionClient

/-! ## Round trip and chunks -/

open NamedPipeCompanionClient

/-- A frame is read back as the value that it was made of. -/
theorem parseJson_frameForJson {o : PipeClientOptions} {value : JsValue} {frame : List UInt8}
    (hp : Printed value) (h : frameForJson o value = .ok frame) :
    ∃ body, nextFrame o frame = .frame body [] ∧ parseJson (utf8Decode body) = some value := by
  unfold frameForJson at h
  rw [stringifyChars_of_printed hp] at h
  dsimp only at h
  cases ha : assertDeclaredFrameLength (utf8Encode (textOf value)).length with
  | error thrown =>
    rw [ha] at h
    cases h
  | ok u =>
    rw [ha] at h
    dsimp only at h
    split at h
    · cases h
    next hnot =>
      obtain rfl := Except.ok.inj h
      have hbody : FrameBody o (utf8Encode (textOf value)) :=
        ⟨assertDeclaredFrameLength_ok_iff.mp ha, Nat.not_lt.mp hnot⟩
      refine ⟨utf8Encode (textOf value), ?_, ?_⟩
      · simpa using nextFrame_frameOf hbody []
      · rw [utf8Decode_utf8Encode, parseJson_textOf hp]

/-- However valid frames are split, their responses are delivered in order and the connection goes
on, exactly as long as each chunk and the unfinished frame before it are within the bound of the
buffer. -/
theorem chunked_delivery_iff (L : PipeLibrary) (o : PipeClientOptions) :
    (∀ (c : NamedPipeCompanionClient) (socket : ℕ) (bodies chunks : List (List UInt8)),
      c.Current socket → c.buffered = [] → ValidFrames L o c bodies →
      chunks.flatten = (bodies.map frameOf).flatten →
        (deliverAll L c bodies = .ok (receive L o c socket chunks) ↔
          FitsWithin (o.maxBufferedBytes + 4) (bodies.map fun body => body.length + 4) 0 chunks)) ∧
    ∀ value frame, Printed value → frameForJson o value = .ok frame →
      ∃ body, nextFrame o frame = .frame body [] ∧ parseJson (utf8Decode body) = some value := by
  refine ⟨?_, fun _ _ => parseJson_frameForJson⟩
  intro c socket bodies chunks hc hb hv hchunks
  obtain ⟨delivered, hd, hs⟩ := hv.answers
  have hlengths : (bodies.map frameOf).map List.length = bodies.map fun body => body.length + 4 := by
    rw [List.map_map]
    exact List.map_congr_left fun body _ => length_frameOf body
  have hp : Partial (bodies.map frameOf) [] := by
    cases bodies with
    | nil => rfl
    | cons body bodies =>
      show 0 < (frameOf body).length
      rw [length_frameOf]
      exact Nat.succ_pos _
  have he : [] ++ chunks.flatten = (bodies.map frameOf).flatten := hchunks
  have hiff := receive_iff hc hb hv.frames hd hs hp he
  have hempty : c.withBuffered [] = c := by rw [withBuffered, ← hb]
  rw [hempty, hlengths] at hiff
  rw [hd, Except.ok.injEq, eq_comm]
  exact hiff

/-! ## Two responses -/

/-- Frames and buffers of up to 128 bytes. -/
def smallOptions : PipeClientOptions where
  maxFrameBytes := 128
  maxBufferedBytes := 128
  maxInFlightRequests := 32

def okResponse (requestId : String) : JsValue := .obj [("protocolMajor", .int 1),
  ("requestId", .str requestId), ("type", .str "action.execute"), ("status", .str "ok"),
  ("payload", .obj [("status", .str "ok")])]

def okBody (requestId : String) : List UInt8 := utf8Encode (textOf (okResponse requestId))

/-- A client that waits for the outcomes of two actions. -/
def busyClient : NamedPipeCompanionClient :=
  { NamedPipeCompanionClient.new with
    socket := some ⟨7, false⟩
    authenticated := true
    pending := [⟨0, "r-1", .actionExecute, true⟩, ⟨1, "r-2", .actionExecute, true⟩]
    calls := 2 }

def answeredClient : NamedPipeCompanionClient :=
  { busyClient with
    pending := []
    ended := [
      ⟨0, .actionExecute, true, some ⟨"r-1", .actionExecute, .ok (.outcome .ok)⟩,
        .resolved (.outcome .ok)⟩,
      ⟨1, .actionExecute, true, some ⟨"r-2", .actionExecute, .ok (.outcome .ok)⟩,
        .resolved (.outcome .ok)⟩] }

theorem deliverAll_busyClient :
    deliverAll sampleLibrary busyClient [okBody "r-1", okBody "r-2"] = .ok answeredClient := by
  decide +kernel

theorem validFrames_busyClient :
    ValidFrames sampleLibrary smallOptions busyClient [okBody "r-1", okBody "r-2"] where
  frames := by
    intro body hbody
    simp only [List.mem_cons, List.not_mem_nil, or_false] at hbody
    rcases hbody with rfl | rfl <;> exact ⟨by decide, by decide⟩
  answers := ⟨answeredClient, deliverAll_busyClient, rfl⟩

/-- The two frames in three chunks, cut in a header and in a body. -/
def threeChunks : List (List UInt8) :=
  let bytes := frameOf (okBody "r-1") ++ frameOf (okBody "r-2")
  [bytes.take 3, (bytes.drop 3).take 110, bytes.drop 113]

theorem chunked_delivery_iff_threeChunks :
    deliverAll sampleLibrary busyClient [okBody "r-1", okBody "r-2"] =
      .ok (receive sampleLibrary smallOptions busyClient 7 threeChunks) := by
  have h := (chunked_delivery_iff sampleLibrary smallOptions).1 busyClient 7
    [okBody "r-1", okBody "r-2"] threeChunks rfl rfl validFrames_busyClient (by decide +kernel)
  exact h.mpr (by decide)

/-- The two frames in one chunk stop the connection. -/
theorem coalesced_frames_stop :
    busyClient.Current 7 ∧ busyClient.buffered = [] ∧
    ValidFrames sampleLibrary smallOptions busyClient [okBody "r-1", okBody "r-2"] ∧
    (receive sampleLibrary smallOptions busyClient 7
      [([okBody "r-1", okBody "r-2"].map frameOf).flatten]).socket = none ∧
    deliverAll sampleLibrary busyClient [okBody "r-1", okBody "r-2"] ≠
      .ok (receive sampleLibrary smallOptions busyClient 7
        [([okBody "r-1", okBody "r-2"].map frameOf).flatten]) := by
  have hstopped : (receive sampleLibrary smallOptions busyClient 7
      [([okBody "r-1", okBody "r-2"].map frameOf).flatten]).socket = none := by decide +kernel
  refine ⟨rfl, rfl, validFrames_busyClient, hstopped, ?_⟩
  rw [deliverAll_busyClient]
  intro h
  rw [← Except.ok.inj h] at hstopped
  cases hstopped

end Qualigence.Desktop.Companion
