import Mathlib.Data.Nat.Init
import Steering.Engine.Transports
import Steering.Http.Wire
/-! What becomes of a response depends on its status, on the bytes of its body and on how they end, but
not on the pieces in which they come. -/

namespace Steering

namespace Http

/-! ## The pieces of a body -/

/-- The bytes of a body that have come. -/
def Response.arrived (response : Response) : List UInt8 :=
  response.frames.flatten

/-- All pieces fit one after another exactly if they fit together. -/
theorem collect_eq (limit : Nat) (complete : Bool) (room : Nat) (frames : List (List UInt8)) :
    collect limit complete room frames =
      if room < frames.flatten.length then .error (.tooLarge limit)
      else if complete then .ok frames.flatten
      else .error (.body "connection closed before message completed") := by
  induction frames generalizing room with
  | nil => rfl
  | cons frame frames ih =>
    rw [collect, ih, List.flatten_cons, List.length_append]
    by_cases large : room < frame.length
    · rw [if_pos large, if_pos (by omega)]
    · have less : room - frame.length < frames.flatten.length ↔
          room < frame.length + frames.flatten.length := by omega
      rw [if_neg large]
      simp only [less]
      split
      · rfl
      · cases complete <;> rfl

/-- What a response comes to. -/
structure Response.Classified (limit : Nat) (response : Response)
    (result : Except Failure (List UInt8)) : Prop where
  /-- The status is the failure exactly if it reports no success, whatever the body. -/
  status : ∀ code, result = .error (.status code) ↔
    response.code = code ∧ ¬ (200 ≤ response.code ∧ response.code ≤ 299)
  /-- The size comes before the end. -/
  tooLarge : ∀ bound, result = .error (.tooLarge bound) ↔
    limit = bound ∧ (200 ≤ response.code ∧ response.code ≤ 299) ∧ limit < response.arrived.length
  brokenOff : (∃ detail, result = .error (.body detail)) ↔
    (200 ≤ response.code ∧ response.code ≤ 299) ∧ response.arrived.length ≤ limit ∧
      response.complete = false
  /-- Otherwise all bytes are accepted, as many as the limit included. -/
  accepted : ∀ body, result = .ok body ↔
    (200 ≤ response.code ∧ response.code ≤ 299) ∧ response.arrived.length ≤ limit ∧
      response.complete = true ∧ response.arrived = body

theorem isSuccess_iff {code : Nat} : isSuccess code = true ↔ 200 ≤ code ∧ code ≤ 299 := by
  rw [isSuccess, Bool.and_eq_true, decide_eq_true_eq, decide_eq_true_eq, Nat.lt_succ_iff]

/-- The four ends of a fetch, each under its own condition. -/
theorem Response.accept_cases (limit : Nat) (response : Response) :
    (¬ (200 ≤ response.code ∧ response.code ≤ 299) ∧
      response.accept limit = .error (.status response.code)) ∨
    (200 ≤ response.code ∧ response.code ≤ 299) ∧
      (limit < response.arrived.length ∧ response.accept limit = .error (.tooLarge limit) ∨
      response.arrived.length ≤ limit ∧ response.complete = false ∧
        response.accept limit = .error (.body "connection closed before message completed") ∨
      response.arrived.length ≤ limit ∧ response.complete = true ∧
        response.accept limit = .ok response.arrived) := by
  rw [accept, collect_eq, ← arrived]
  by_cases success : isSuccess response.code = true
  · refine .inr ⟨isSuccess_iff.mp success, ?_⟩
    rw [if_pos success]
    by_cases large : limit < response.arrived.length
    · rw [if_pos large]
      exact .inl ⟨large, rfl⟩
    · rw [if_neg large]
      cases complete : response.complete with
      | false => exact .inr (.inl ⟨Nat.not_lt.mp large, rfl, rfl⟩)
      | true => exact .inr (.inr ⟨Nat.not_lt.mp large, rfl, rfl⟩)
  · rw [if_neg success]
    exact .inl ⟨mt isSuccess_iff.mpr success, rfl⟩

theorem Response.classified_accept (limit : Nat) (response : Response) :
    response.Classified limit (response.accept limit) := by
  rcases response.accept_cases limit with ⟨refused, its⟩ | ⟨range, ⟨large, its⟩ |
    ⟨fits, complete, its⟩ | ⟨fits, complete, its⟩⟩
  · constructor <;> simp [its, refused]
  · have beyond : ¬ response.arrived.length ≤ limit := Nat.not_le.mpr large
    constructor <;> simp [its, range, large, beyond]
  · constructor <;> simp [its, range, fits, complete]
  · constructor <;> simp [its, range, fits, complete]

/-- Whether two responses have the same status and bring the same bytes with the same ending. -/
structure Response.SameStream (one other : Response) : Prop where
  code : one.code = other.code
  arrived : one.arrived = other.arrived
  complete : one.complete = other.complete

variable {one other : Response}

theorem Response.SameStream.accept (same : one.SameStream other) (limit : Nat) :
    one.accept limit = other.accept limit := by
  have bytes : one.frames.flatten = other.frames.flatten := same.arrived
  rw [Response.accept, Response.accept, collect_eq, collect_eq, same.code, bytes, same.complete]

/-! ## Bodies on the wire -/

section Wire

open Json (hexValue?)

/-- The hexadecimal digits of a number. -/
def sizeBytes (n : Nat) : List UInt8 :=
  (Nat.toDigits 16 n).map fun c => UInt8.ofNat c.toNat

/-- A chunk as it is sent: how many bytes it has, a line break, the bytes and a line break. -/
def chunkBytes (chunk : List UInt8) : List UInt8 :=
  sizeBytes chunk.length ++ 0x0D :: 0x0A :: (chunk ++ [0x0D, 0x0A])

/-- The chunk without bytes that ends a body. -/
def lastChunk : List UInt8 := [0x30, 0x0D, 0x0A, 0x0D, 0x0A]

theorem digit_digitChar {n : Nat} (digit : n < 16) :
    hexValue? (UInt8.ofNat (Nat.digitChar n).toNat) = some n ∧
      UInt8.ofNat (Nat.digitChar n).toNat ≠ 0x0A := by
  have all : ∀ m : Fin 16, hexValue? (UInt8.ofNat (Nat.digitChar m).toNat) = some m.val ∧
      UInt8.ofNat (Nat.digitChar m).toNat ≠ 0x0A := by decide +kernel
  exact all ⟨n, digit⟩

/-- The digits of a number are read as the number. -/
theorem exists_sizeDigits (n : Nat) : ∃ digits : List Nat,
    (sizeBytes n).map hexValue? = digits.map some ∧
      digits.foldl (fun n digit => n * 16 + digit) 0 = n ∧ ∀ b ∈ sizeBytes n, b ≠ 0x0A := by
  induction n using Nat.strong_induction_on with
  | _ n ih =>
    rw [sizeBytes, Nat.toDigits_eq_if (by decide)]
    split
    · rename_i small
      obtain ⟨value, noBreak⟩ := digit_digitChar small
      exact ⟨[n], by simp [value], by simp, by simpa using noBreak⟩
    · obtain ⟨digits, values, number, noBreaks⟩ := ih (n / 16) (by omega)
      obtain ⟨value, noBreak⟩ := digit_digitChar (Nat.mod_lt n (by decide : 0 < 16))
      refine ⟨digits ++ [n % 16], ?_, ?_, ?_⟩
      · rw [List.map_append, List.map_append, List.map_append, ← values]
        simp [sizeBytes, value]
      · rw [List.foldl_append, number]
        exact Nat.div_add_mod' n 16
      · rw [List.map_append]
        intro b member
        rcases List.mem_append.mp member with early | last
        · exact noBreaks b early
        · simp only [List.map_cons, List.map_nil, List.mem_singleton] at last
          exact last ▸ noBreak

/-- The size of a chunk is what its first line says. -/
theorem readSize_sizeBytes (n : Nat) (rest : List UInt8) :
    readSize (sizeBytes n ++ 0x0D :: rest) = n := by
  obtain ⟨digits, values, number, -⟩ := exists_sizeDigits n
  have none : hexValue? 0x0D = none := by decide
  have stops : (digits.map some ++ Option.none :: rest.map hexValue?).takeWhile Option.isSome =
      digits.map some := by
    rw [List.takeWhile_append_of_pos (by simp)]
    simp
  rw [readSize, List.map_append, List.map_cons, values, none, stops, List.foldl_map]
  simpa using number

theorem dropWhile_sizeBytes (n : Nat) (rest : List UInt8) :
    (sizeBytes n ++ 0x0D :: 0x0A :: rest).dropWhile (· ≠ 0x0A) = 0x0A :: rest := by
  obtain ⟨-, -, -, noBreaks⟩ := exists_sizeDigits n
  rw [List.dropWhile_append_of_pos (by simpa using noBreaks)]
  simp

/-- A chunk is taken off in one step. -/
theorem unchunk_chunk {chunk : List UInt8} (some : chunk ≠ []) (rest : List UInt8) (fuel : Nat) :
    unchunk (fuel + 1) (chunkBytes chunk ++ rest) =
      (chunk :: (unchunk fuel rest).1, (unchunk fuel rest).2) := by
  have size : chunk.length ≠ 0 := mt List.eq_nil_of_length_eq_zero some
  have shape : chunkBytes chunk ++ rest =
      sizeBytes chunk.length ++ 0x0D :: 0x0A :: (chunk ++ (0x0D :: 0x0A :: rest)) := by
    simp [chunkBytes]
  have enough : ¬ (chunk ++ 0x0D :: 0x0A :: rest).length < chunk.length := by simp
  rw [shape, unchunk, dropWhile_sizeBytes]
  simp only [readSize_sizeBytes, size, enough, if_false, List.drop_left, List.take_left]
  rfl

/-- A body in chunks is taken apart into these, whatever follows them. -/
theorem unchunk_chunks {chunks : List (List UInt8)} (some : ∀ chunk ∈ chunks, chunk ≠ [])
    (rest : List UInt8) (fuel : Nat) :
    unchunk (fuel + chunks.length) (chunks.flatMap chunkBytes ++ rest) =
      (chunks ++ (unchunk fuel rest).1, (unchunk fuel rest).2) := by
  induction chunks with
  | nil => rfl
  | cons chunk chunks ih =>
    obtain ⟨first, others⟩ := List.forall_mem_cons.mp some
    rw [List.flatMap_cons, List.append_assoc, List.length_cons, ← Nat.add_assoc,
      unchunk_chunk first, ih others]
    rfl

theorem length_le_chunks (chunks : List (List UInt8)) :
    chunks.length ≤ (chunks.flatMap chunkBytes).length := by
  induction chunks with
  | nil => exact Nat.le_refl _
  | cons chunk chunks ih =>
    simp only [List.flatMap_cons, chunkBytes, List.length_append, List.length_cons]
    omega

variable {chunks : List (List UInt8)} (some : ∀ chunk ∈ chunks, chunk ≠ [])
include some

/-- A body in chunks comes to its end with the last one. -/
theorem body_chunked (closed : Bool) :
    Framing.chunked.body closed (chunks.flatMap chunkBytes ++ lastChunk) = (chunks, true) := by
  have few := length_le_chunks chunks
  obtain ⟨fuel, enough⟩ : ∃ fuel, (chunks.flatMap chunkBytes ++ lastChunk).length =
      fuel + 1 + chunks.length :=
    ⟨(chunks.flatMap chunkBytes ++ lastChunk).length - chunks.length - 1, by
      simp only [List.length_append, lastChunk, List.length_cons]
      omega⟩
  have ends : unchunk (fuel + 1) lastChunk = ([], true) := rfl
  rw [Framing.body, enough, unchunk_chunks some, ends, List.append_nil]

/-- A body in chunks that breaks off inside one has brought what came of it. -/
theorem body_chunked_broken (closed : Bool) {part : List UInt8} {size : Nat}
    (short : part.length < size) :
    Framing.chunked.body closed
        (chunks.flatMap chunkBytes ++ (sizeBytes size ++ 0x0D :: 0x0A :: part)) =
      (chunks ++ [part], false) := by
  have few := length_le_chunks chunks
  obtain ⟨last, its⟩ : ∃ last, last = sizeBytes size ++ 0x0D :: 0x0A :: part := ⟨_, rfl⟩
  obtain ⟨fuel, enough⟩ : ∃ fuel, (chunks.flatMap chunkBytes ++ last).length =
      fuel + 1 + chunks.length :=
    ⟨(chunks.flatMap chunkBytes ++ last).length - chunks.length - 1, by
      simp only [its, List.length_append, List.length_cons]
      omega⟩
  have ends : unchunk (fuel + 1) last = ([part], false) := by
    rw [its, unchunk, dropWhile_sizeBytes]
    simp only [readSize_sizeBytes, Nat.ne_zero_of_lt short, short, if_false, if_true]
  rw [← its, Framing.body, enough, unchunk_chunks some, ends]

end Wire

/-- The response that some bytes of a body amount to. -/
def Framing.response (framing : Framing) (code : Nat) (closed : Bool) (bytes : List UInt8) :
    Response :=
  ⟨code, (framing.body closed bytes).1, (framing.body closed bytes).2⟩

/-- Whether a body of the same bytes, sent whole with its length or cut into some chunks, is the same
stream, both if it comes to its end and if it breaks off. -/
structure SameInChunks (code : Nat) (closed : Bool) (chunks : List (List UInt8)) : Prop where
  whole : (Framing.chunked.response code closed (chunks.flatMap chunkBytes ++ lastChunk)).SameStream
    ((Framing.length chunks.flatten.length).response code closed chunks.flatten)
  broken : ∀ part size length, part.length < size → (chunks.flatten ++ part).length < length →
    (Framing.chunked.response code closed
      (chunks.flatMap chunkBytes ++ (sizeBytes size ++ 0x0D :: 0x0A :: part))).SameStream
        ((Framing.length length).response code closed (chunks.flatten ++ part))

theorem response_length (code : Nat) (closed : Bool) (length : Nat) (bytes : List UInt8) :
    (Framing.length length).response code closed bytes =
      ⟨code, [bytes.take length], length ≤ bytes.length⟩ := rfl

theorem sameInChunks (code : Nat) (closed : Bool) {chunks : List (List UInt8)}
    (some : ∀ chunk ∈ chunks, chunk ≠ []) : SameInChunks code closed chunks where
  whole := by
    rw [Framing.response, body_chunked some, response_length, List.take_length]
    exact ⟨rfl, by simp [Response.arrived], by simp⟩
  broken part size length short more := by
    rw [Framing.response, body_chunked_broken some closed short, response_length,
      List.take_of_length_le (Nat.le_of_lt more)]
    exact ⟨rfl, by simp [Response.arrived], by simpa using more⟩

/-! ## What is made of bodies -/

/-- Whether two carriers take as long for every request and bring the same streams. -/
def Carrier.Alike (one other : Carrier) : Prop :=
  ∀ now request, (one now request).1 = (other now request).1 ∧
    match (one now request).2, (other now request).2 with
    | .ok response, .ok like => response.SameStream like
    | .error detail, .error like => detail = like
    | _, _ => False

end Http

open Http (Response Carrier)

theorem PopStatus.ofResponse_of_sameStream {one other : Response} (same : one.SameStream other)
    (limit : Nat) : ofResponse limit one = ofResponse limit other := by
  rw [ofResponse, ofResponse, same.accept]

theorem ProbeResult.latencyOfResponse_of_sameStream {one other : Response}
    (same : one.SameStream other) (limit : Nat) :
    latencyOfResponse limit one = latencyOfResponse limit other := by
  rw [latencyOfResponse, latencyOfResponse, same.accept]

/-- A reply does not depend on the pieces of a body if what is read from a response does not. -/
theorem Refresh.Reply.ofExchange_of_alike {ε α : Type} {http : Http.Failure → ε}
    {read : Response → Except ε α} (reads : ∀ {one other : Response}, one.SameStream other →
      read one = read other) {one other : Carrier} (alike : one.Alike other) (now : Nat)
    (request : Http.Request) :
    ofExchange http read (one.exchange now request) =
      ofExchange http read (other.exchange now request) := by
  rw [Http.Carrier.exchange, Http.Carrier.exchange]
  cases request.route with
  | error failure => rfl
  | ok route =>
    have both := alike now request
    generalize one now request = sent at both ⊢
    generalize other now request = sentToo at both ⊢
    obtain ⟨delay, resultOne⟩ := sent
    obtain ⟨delayToo, resultOther⟩ := sentToo
    obtain ⟨rfl, same⟩ := both
    cases resultOne with
    | error detail =>
      cases resultOther with
      | error like =>
        cases same
        rfl
      | ok response => exact same.elim
    | ok response =>
      cases resultOther with
      | error detail => exact same.elim
      | ok like =>
        change (⟨delay, .ofExchange http read (.ok response)⟩ : Refresh.Reply ε α) =
          ⟨delay, .ofExchange http read (.ok like)⟩
        rw [Outcome.ofExchange, Outcome.ofExchange, reads same]

theorem Engine.ownTransports_of_alike (engine : Engine) (statusPort : Nat) {one other : Carrier}
    (alike : one.Alike other) :
    engine.ownTransports statusPort one = engine.ownTransports statusPort other := by
  rw [ownTransports, ownTransports, Refresh.Transports.mk.injEq]
  constructor
  · funext now address
    exact Refresh.Reply.ofExchange_of_alike
      (fun same => PopStatus.ofResponse_of_sameStream same _) alike now _
  · funext now region endpoint
    cases engine.probers[region]? with
    | none => rfl
    | some prober =>
      exact Refresh.Reply.ofExchange_of_alike
        (fun same => ProbeResult.latencyOfResponse_of_sameStream same _) alike now _

namespace Http

/-- How a fetch ends is decided by the status, then by the number of bytes that came, then by how they
ended. Responses that bring the same bytes with the same ending give the same body or failure, the same
record and the same latency, in whatever pieces and by whatever framing they come, and so do the
transports of an engine. -/
theorem fetch_by_stream (limit : Nat) (response : Response) :
    response.Classified limit (response.accept limit) ∧
    (∀ other : Response, response.SameStream other →
      response.accept limit = other.accept limit ∧
      PopStatus.ofResponse limit response = PopStatus.ofResponse limit other ∧
      ProbeResult.latencyOfResponse limit response =
        ProbeResult.latencyOfResponse limit other) ∧
    (∀ code closed chunks, (∀ chunk ∈ chunks, chunk ≠ []) → SameInChunks code closed chunks) ∧
    (∀ (engine : Engine) statusPort (one other : Carrier), one.Alike other →
      engine.ownTransports statusPort one = engine.ownTransports statusPort other) := by
  refine ⟨response.classified_accept limit, fun other same => ⟨same.accept limit, ?_, ?_⟩, ?_, ?_⟩
  · exact PopStatus.ofResponse_of_sameStream same limit
  · exact ProbeResult.latencyOfResponse_of_sameStream same limit
  · exact fun code closed chunks some => sameInChunks code closed some
  · exact fun engine statusPort one other alike => engine.ownTransports_of_alike statusPort alike

/-- A document in one piece and in three, one of them empty, is accepted up to the same limit. -/
theorem fetch_by_stream_pieces :
    let one : Response := ⟨200, [[0x7B, 0x7D]], true⟩
    let other : Response := ⟨200, [[0x7B], [], [0x7D]], true⟩
    one.SameStream other ∧ one.accept 2 = .ok [0x7B, 0x7D] ∧ one.accept 2 = other.accept 2 ∧
      one.accept 1 = .error (.tooLarge 1) ∧
      PopStatus.ofResponse 2 one = PopStatus.ofResponse 2 other := by
  intro one other
  have same : one.SameStream other := ⟨rfl, rfl, rfl⟩
  obtain ⟨classified, alike, -⟩ := fetch_by_stream 2 one
  obtain ⟨small, -⟩ := fetch_by_stream 1 one
  exact ⟨same, (classified.accepted _).mpr (by decide), (alike other same).1,
    (small.tooLarge 1).mpr (by decide), (alike other same).2.1⟩

end Http

end Steering
