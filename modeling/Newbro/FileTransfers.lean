import Newbro.Library.Base64
import Newbro.Library.Table
import Newbro.Library.Transition

/-!
# Workspace files on their way to the server

A node sends a file of its workspace in chunks (`_read_workspace_file`), the manager puts the
messages on the queue of their request (`_publish_workspace_file`), and `read_workspace_file`
yields the bytes of the chunks until the end of the file, an error or a timeout. The end of a file
announces how many bytes the file has and what their digest is.
-/
namespace Newbro.FileTransfers

open Library

/-! ## Messages -/

inductive FileErrorCode where
  | denied
  | notFound
  | tooLarge
  | readError
  deriving Repr, DecidableEq

/-- `WorkspaceFileChunk`, `WorkspaceFileEof` and `WorkspaceFileError`. -/
inductive FileMessage where
  | chunk (requestId : String) (seq : Int) (data : String)
  | eof (requestId : String) (totalBytes : Int) (sha256 : Option String)
  | error (requestId : String) (code : FileErrorCode) (message : String)
  deriving Repr, DecidableEq

def FileMessage.requestId : FileMessage → String
  | chunk requestId _ _ => requestId
  | eof requestId _ _ => requestId
  | error requestId _ _ => requestId

/-! ## The node -/

/-- A file that has been resolved: what `stat` says of its size, what reading it brings, and the
error that reading ends with, if it does. -/
structure WorkspaceFile where
  size : Nat
  content : List UInt8
  osError : Option String

def defaultMaxBytes : Nat := 100 * 1024 * 1024

/-- `CHUNK_BYTES` -/
def defaultChunkBytes : Nat := 256 * 1024

/-- `handle.read(chunk_bytes)` until it brings nothing. -/
def blocks (chunkBytes : Nat) (content : List UInt8) : List (List UInt8) :=
  if chunkBytes = 0 ∨ content = [] then []
  else content.take chunkBytes :: blocks chunkBytes (content.drop chunkBytes)
termination_by content.length
decreasing_by
  rename_i h
  rw [not_or] at h
  have hlength := List.length_pos_iff.mpr h.2
  rw [List.length_drop]
  omega

/-- `iter_file_bytes`: the blocks, and the error that the iteration ends with. -/
def iterFileBytes (maxBytes chunkBytes : Nat) (file : WorkspaceFile) :
    List (List UInt8) × Option (FileErrorCode × String) :=
  if file.size > maxBytes then
    ([], some (.tooLarge, "file exceeds " ++ toString maxBytes ++ " bytes"))
  else (blocks chunkBytes file.content, file.osError.map fun text => (.readError, text))

/-- The chunks of the blocks, numbered from `seq` on. -/
def chunksFrom (requestId : String) : Nat → List (List UInt8) → List FileMessage
  | _, [] => []
  | seq, block :: rest =>
    .chunk requestId seq (String.ofList (Base64.encode block)) ::
      chunksFrom requestId (seq + 1) rest

/-- `_read_workspace_file` after the file has been looked up: what is sent. -/
def sentMessages (digest : List UInt8 → String) (maxBytes chunkBytes : Nat) (requestId : String)
    (resolved : Except (FileErrorCode × String) WorkspaceFile) : List FileMessage :=
  match resolved with
  | .error (code, message) => [.error requestId code message]
  | .ok file =>
    match iterFileBytes maxBytes chunkBytes file with
    | (sent, some (code, message)) => chunksFrom requestId 0 sent ++ [.error requestId code message]
    | (sent, none) =>
      chunksFrom requestId 0 sent ++
        [.eof requestId sent.flatten.length (some (digest sent.flatten))]

/-! ## The manager -/

inductive ReadError where
  | unavailable (code message : String)
  | denied (code : FileErrorCode) (message : String)
  | sendFailed
  | badData
  deriving Repr, DecidableEq

/-- How far a call of `read_workspace_file` has come. -/
inductive ReadPhase where
  | sending
  | reading
  | ended (totalBytes : Int) (sha256 : Option String)
  | raised (error : ReadError)
  | closed
  deriving Repr, DecidableEq

/-- A call of `read_workspace_file`, with what it has yielded so far. Its queue is that of
`_workspace_file_streams`, where it has one while it is sending or reading. -/
structure FileStream where
  requestId : String
  queue : List FileMessage := []
  body : List UInt8 := []
  phase : ReadPhase := .sending
  deriving Repr, DecidableEq

namespace FileStream

/-- The request is among `_workspace_file_streams`. -/
def isOpen (stream : FileStream) : Bool := stream.phase = .sending || stream.phase = .reading

/-- The generator goes on with a message of its queue. -/
def receive (stream : FileStream) : FileMessage → FileStream
  | .chunk _ _ data =>
    match Base64.decode data.toList with
    | some bytes => { stream with body := stream.body ++ bytes }
    | none => { stream with phase := .raised .badData }
  | .eof _ totalBytes sha256 => { stream with phase := .ended totalBytes sha256 }
  | .error _ code message => { stream with phase := .raised (.denied code message) }

end FileStream

/-- The calls of `read_workspace_file` so far. -/
structure FileStreams where
  streams : Table FileStream.requestId := Table.empty

inductive Event where
  /-- The first item is asked for; a call draws an id that no other has had. -/
  | read (requestId : String) (connected : Bool)
  /-- The command has been sent, or sending it raises. -/
  | sent (requestId : String) (ok : Bool)
  | publish (message : FileMessage)
  /-- The call goes on with the next message of its queue. -/
  | next (requestId : String)
  | timeOut (requestId : String)
  /-- The generator is closed. -/
  | close (requestId : String)

def offline : ReadError := .unavailable "node_offline" "executor node not connected"

def timedOut : ReadError := .unavailable "node_offline" "timed out"

/-- One stretch of a call, or a message that comes. -/
def step (s : FileStreams) : Event → Option FileStreams
  | .read requestId connected =>
    if s.streams.contains requestId then none
    else
      some ⟨s.streams.put
        { requestId := requestId, phase := if connected then .sending else .raised offline }⟩
  | .sent requestId ok =>
    match s.streams.get? requestId with
    | some stream =>
      if stream.phase = .sending then
        some ⟨s.streams.put
          { stream with phase := if ok then .reading else .raised .sendFailed }⟩
      else none
    | none => none
  | .publish message =>
    match s.streams.get? message.requestId with
    | some stream =>
      if stream.isOpen then
        some ⟨s.streams.put { stream with queue := stream.queue ++ [message] }⟩
      else some s
    | none => some s
  | .next requestId =>
    match s.streams.get? requestId with
    | some stream =>
      match stream.phase, stream.queue with
      | .reading, message :: queue =>
        some ⟨s.streams.put ({ stream with queue := queue }.receive message)⟩
      | _, _ => none
    | none => none
  | .timeOut requestId =>
    match s.streams.get? requestId with
    | some stream =>
      if stream.phase = .reading ∧ stream.queue = [] then
        some ⟨s.streams.put { stream with phase := .raised timedOut }⟩
      else none
    | none => none
  | .close requestId =>
    match s.streams.get? requestId with
    | some stream =>
      if stream.isOpen then some ⟨s.streams.put { stream with phase := .closed }⟩ else none
    | none => none

/-- The runs of a manager. -/
def system : System FileStreams Event where
  initial s := s = {}
  step := step

/-! ## The law -/

/-- The bytes are as many as announced, and have the digest if one is announced. -/
def Announced (digest : List UInt8 → String) (body : List UInt8) (totalBytes : Int)
    (sha256 : Option String) : Prop :=
  (body.length : Int) = totalBytes ∧ ∀ announced, sha256 = some announced → digest body = announced

instance decidableAnnounced (digest : List UInt8 → String) (body : List UInt8) (totalBytes : Int)
    (sha256 : Option String) : Decidable (Announced digest body totalBytes sha256) :=
  match sha256 with
  | none => decidable_of_iff ((body.length : Int) = totalBytes) (by simp [Announced])
  | some announced =>
    decidable_of_iff ((body.length : Int) = totalBytes ∧ digest body = announced)
      (by simp [Announced])

/-- A stream that has ended without raising has brought the file that was announced. -/
def FileStream.Fits (digest : List UInt8 → String) (stream : FileStream) : Prop :=
  ∀ totalBytes sha256, stream.phase = .ended totalBytes sha256 →
    Announced digest stream.body totalBytes sha256

def Complete (digest : List UInt8 → String) (s : FileStreams) : Prop :=
  ∀ stream ∈ s.streams.entries, stream.Fits digest

section Step

variable {digest : List UInt8 → String} {s : FileStreams} {stream : FileStream}

end Step

variable {chunkBytes : Nat}

theorem flatten_blocks (h : 0 < chunkBytes) (content : List UInt8) :
    (blocks chunkBytes content).flatten = content := by
  induction content using blocks.induct chunkBytes with
  | case1 content hdone =>
    rcases hdone with hzero | hempty
    · omega
    · rw [blocks, if_pos (Or.inr hempty), hempty]
      rfl
  | case2 content hmore ih =>
    rw [blocks, if_neg hmore, List.flatten_cons, ih, List.take_append_drop]

theorem foldl_receive_chunksFrom (stream : FileStream) (requestId : String) (seq : Nat)
    (sent : List (List UInt8)) :
    (chunksFrom requestId seq sent).foldl FileStream.receive stream =
      { stream with body := stream.body ++ sent.flatten } := by
  induction sent generalizing stream seq with
  | nil => simp [chunksFrom]
  | cons block sent ih =>
    have hfirst : stream.receive (.chunk requestId seq (String.ofList (Base64.encode block))) =
        { stream with body := stream.body ++ block } := by
      simp [FileStream.receive, Base64.decode_encode]
    rw [chunksFrom, List.foldl_cons, hfirst, ih, List.flatten_cons, List.append_assoc]

/-- Whatever the size of the blocks, a file that can be read arrives as it is, and ends with what
the node announces of it. -/
theorem receive_sentMessages (digest : List UInt8 → String) {maxBytes : Nat}
    (hchunk : 0 < chunkBytes) (requestId : String) {file : WorkspaceFile}
    (hsize : file.size ≤ maxBytes) (hread : file.osError = none) (stream : FileStream) :
    (sentMessages digest maxBytes chunkBytes requestId (.ok file)).foldl FileStream.receive stream =
      { stream with
        body := stream.body ++ file.content
        phase := .ended file.content.length (some (digest file.content)) } := by
  have hiter : iterFileBytes maxBytes chunkBytes file = (blocks chunkBytes file.content, none) := by
    rw [iterFileBytes, if_neg (by omega), hread]
    rfl
  rw [sentMessages, hiter]
  dsimp only
  rw [List.foldl_append, foldl_receive_chunksFrom, flatten_blocks hchunk]
  rfl

theorem small_file_arrives :
    (sentMessages (fun _ => "d") 9 2 "r-1" (.ok ⟨3, [1, 2, 3], none⟩)).foldl FileStream.receive
      ⟨"r-1", [], [], .reading⟩ = ⟨"r-1", [], [1, 2, 3], .ended 3 (some "d")⟩ :=
  receive_sentMessages _ (by decide) _ (by decide) rfl _

/-- A file that the node refuses, or cannot read to its end, is never one that ends. -/
theorem receive_refused (digest : List UInt8 → String) {maxBytes : Nat}
    (requestId : String) {resolved : Except (FileErrorCode × String) WorkspaceFile}
    (hrefused : ∀ file, resolved = .ok file → maxBytes < file.size ∨ file.osError ≠ none)
    (stream : FileStream) :
    ∃ code message, ((sentMessages digest maxBytes chunkBytes requestId resolved).foldl
      FileStream.receive stream).phase = .raised (.denied code message) := by
  cases resolved with
  | error refusal =>
    obtain ⟨code, message⟩ := refusal
    exact ⟨code, message, rfl⟩
  | ok file =>
    have hiter : ∃ sent code message,
        iterFileBytes maxBytes chunkBytes file = (sent, some (code, message)) := by
      by_cases hsize : file.size > maxBytes
      · exact ⟨[], .tooLarge, "file exceeds " ++ toString maxBytes ++ " bytes",
          by rw [iterFileBytes, if_pos hsize]⟩
      · obtain ⟨text, htext⟩ := Option.ne_none_iff_exists'.mp
          ((hrefused file rfl).resolve_left hsize)
        refine ⟨blocks chunkBytes file.content, .readError, text, ?_⟩
        rw [iterFileBytes, if_neg hsize, htext]
        rfl
    obtain ⟨sent, code, message, hiter⟩ := hiter
    refine ⟨code, message, ?_⟩
    rw [sentMessages, hiter]
    dsimp only
    rw [List.foldl_append, foldl_receive_chunksFrom]
    rfl

theorem large_file_refused : ∃ code message,
    ((sentMessages (fun _ => "d") 2 2 "r-1" (.ok ⟨3, [1, 2, 3], none⟩)).foldl FileStream.receive
      ⟨"r-1", [], [], .reading⟩).phase = .raised (.denied code message) :=
  receive_refused _ _ (fun file h => by cases h; exact .inl (by decide)) _

end Newbro.FileTransfers
