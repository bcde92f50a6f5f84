import Sheprd.Mirror.Transcript

namespace Sheprd.Mirror

open Sheprd.Lib Sheprd.Lib.Exec Sheprd.Chat

namespace Projection

section Replies

def answerSize (row : QuestionKey × QuestionAnswer) : ℕ :=
  row.1.call.utf8ByteSize + row.2.question.utf8ByteSize + row.2.answer.utf8ByteSize

def counted (answered : Dict QuestionKey QuestionAnswer) (counts : ℕ × ℕ)
    (row : QuestionKey × QuestionAnswer) : ℕ × ℕ :=
  match answered.lookup row.1 with
  | some previous => (counts.1, counts.2 - answerSize (row.1, previous) + answerSize row)
  | none => (counts.1 + 1, counts.2 + answerSize row)

def rememberAnswers (pending : List (QuestionKey × QuestionAnswer)) : Projecting Bool := do
  let answered := (← get).answered
  let bytes := (answered.entries.map fun e => answerSize (e.1, e.2)).sum
  let (count, bytes) := pending.foldl (counted answered) (answered.entries.length, bytes)
  if Acp.maxEntries < count ∨ Acp.maxTranscriptText < bytes then return false
  else
    modify fun p => { p with answered := pending.foldl (fun d row => d.insert row.1 row.2) p.answered }
    return true

def retainedRows (readers : Readers) (value : Value) (order : String) :
    Option (String × List QuestionAnswer) := do
  let call ← (index value "call_id").asStr
  if call.isEmpty ∨ maxId < call.utf8ByteSize ∨ (string value "turn_id").isEmpty ∨
      (index value order).asNat = none then none
  else
    let rows ← (index value "questions").asArray
    if rows.isEmpty ∨ maxQuestionAnswers < rows.length then none
    else
      let answers ← readers.answers (index value "questions")
      if validQuestionAnswers answers &&
          answers.all fun answer => !(Text.trim answer.question).isEmpty then
        some (call, answers)
      else none

def retainedAnswer (readers : Readers) (value : Value) (order : String) :
    Projecting (Option EntryKind) := do
  let source : String := .ofList (Value.print value)
  note (decide (maxText < source.utf8ByteSize))
  let fallback := Mirror.source "Retained question context" source
  match retainedRows readers value order with
  | none => return some fallback
  | some (call, rows) => do
    let answered := (← get).answered
    let pending := (rows.zipIdx.map fun (answer, index) => (⟨call, index⟩, answer)).filter
      fun (row : QuestionKey × QuestionAnswer) => decide (answered.lookup row.1 ≠ some row.2)
    if pending.isEmpty then return none
    else if ← rememberAnswers pending then
      return some (Mirror.answered (pending.map Prod.snd) source)
    else return some fallback

def asked (readers : Readers) (p : Projection) (key : QuestionKey) (question : String) : Bool :=
  ((do
    let position ← p.tools.lookup key.call
    let entry ← p.transcript.entries[position]?
    match entry.kind with
    | .tool tool =>
      if tool.title ≠ questionTool then none
      else
        match tool.content.head? with
        | some (.text text) => do
          let arguments ← readers.fromStr text
          let questions ← (index arguments "questions").asArray
          let asked ← questions[key.index]?
          some (decide (string asked "title" = question))
        | _ => none
    | _ => none) : Option Bool).getD false

def replied (readers : Readers) (p : Projection) : List Reply → Dict QuestionKey QuestionAnswer →
    List (QuestionKey × QuestionAnswer) →
    Option (Dict QuestionKey QuestionAnswer × List (QuestionKey × QuestionAnswer))
  | [], answered, pending => some (answered, pending)
  | reply :: replies, answered, pending => do
    let (name, call, index) ← readers.item reply.questionItemId
    let key : QuestionKey := ⟨call, index⟩
    if name ≠ questionTool ∨ (Text.trim reply.question).isEmpty ∨ key ∈ answered then none
    else
      let retained := (p.answered.lookup key).any fun answer =>
        decide (answer.question = reply.question)
      if !retained && !p.asked readers key reply.question then none
      else
        let answer : QuestionAnswer := ⟨reply.question, reply.answer⟩
        replied readers p replies (answered.insert key answer)
          (if p.answered.lookup key = some answer then pending else pending ++ [(key, answer)])

def repliesOf (readers : Readers) (record : Value) (content : String) : Option (List Reply) := do
  if maxText < content.utf8ByteSize ∨
      (index (index record "metadata") "client_authored").asBool ≠ some false then none
  else
    let body ← stripPrefix "<send_user_message_question_reply>" (Text.trim content)
    let body ← stripSuffix "</send_user_message_question_reply>" body
    let replies ← readers.replies body
    if replies.isEmpty ∨ maxQuestionAnswers < replies.length then none else some replies

def questionReply (readers : Readers) (record : Value) (content : String) :
    Projecting (Option EntryKind) := do
  let p ← get
  match (repliesOf readers record content).bind fun replies => p.replied readers replies ∅ [] with
  | none => return none
  | some (answered, pending) =>
    if !validQuestionAnswers (answered.entries.map fun e => e.2) then return none
    else if ← rememberAnswers pending then
      -- A malformed batch must not consume earlier valid answers from it.
      return some (if pending.isEmpty then source "Question answer already recorded" content
        else Mirror.answered (pending.map Prod.snd) content)
    else return none

end Replies

section Messages

def imageRecord (record : Value) : Bool :=
  let payload := index record "payload"
  decide (string record "type" = "response_item") && decide (string payload "type" = "message") &&
    decide (string payload "role" ∈ ["user", "assistant"]) &&
    (index payload "content").asArray.any fun blocks =>
      (blocks.take maxBlocks).any fun block => decide (string block "type" = "input_image")

def provenance (payload : Value) (slot count : ℕ) : Option (String × String) := do
  let metadata := index payload "internal_chat_message_metadata_passthrough"
  let kinds ← (index metadata "content_item_kinds").asArray
  let items ← (index metadata "content_item_metadata").asArray
  if kinds.length ≠ count ∨ items.length ≠ count then none
  else
    let kind ← kinds[slot]?.bind Value.asStr
    let item ← items[slot]?
    let written ← (index (index item "provenance") "type").asStr
    return (kind, written)

def contextLabel (record : Value) (slot count : ℕ) : Option String :=
  let payload := index record "payload"
  match provenance payload slot count with
  | some (kind, "harness") =>
    some (if kind = "environments.environment_context" then "Environment context updated"
      else "System context")
  | _ => do
    let metadata := index payload "internal_chat_message_metadata_passthrough"
    let kinds ← (index metadata "content_item_kinds").asArray
    -- Older native context records predate per-slot provenance.
    if (metadata.get "content_item_metadata").isSome ∨
        (index (index record "metadata") "client_authored").asBool = some true ∨
        kinds.length ≠ count then none
    else
      let kind ← kinds[slot]?.bind Value.asStr
      if kind = "environments.environment_context" then some "Environment context updated"
      else if kind = "agents_md.instructions" then some "System context"
      else none

def embeddedImage (block : Value) : Option Image := do
  if string block "type" ≠ "input_image" then none
  else
    let url ← stripPrefix "data:" (string block "image_url")
    let (mime, data) ← splitOnce ";base64," url
    if Acp.maxImageData < data.utf8ByteSize then none else Acp.Image.new mime data

def picture (image : Option Image) (author : Author) : EntryKind :=
  match image with
  | some image => .image author image
  | none => source "Image unavailable"
      ("The embedded image data is missing, invalid, too large, or unsupported. " ++
        "Supported formats are PNG, JPEG, GIF, and WebP.")

structure Attachment where
  caption : Option String
  consumed : ℕ
  image : Option Image
  name : String
  source : String

def attachmentName (opening : String) : Option String := do
  let wrapper ← stripPrefix "<image name=" opening
  let wrapper ← stripSuffix ">" wrapper
  let (name, path) ← splitOnce " path=\"" wrapper
  let path ← stripSuffix "\"" path
  let number ← stripPrefix "[Image #" name
  let number ← stripSuffix "]" number
  if number.isEmpty ∨ ¬number.toList.all Char.isDigit ∨ 64 < name.utf8ByteSize ∨ path.isEmpty ∨
      containsAny ['\n', '\r', '"', '<', '>'] path then none
  else some name

def attachment (payload : Value) (blocks : List Value) (slot : ℕ) : Option Attachment := do
  let opening ← blocks[slot]?
  let image ← blocks[slot + 1]?
  let closing ← blocks[slot + 2]?
  let typed := fun (slot : ℕ) (kind : String) =>
    provenance payload slot blocks.length = some (kind, "user")
  if ¬typed slot "user.text" ∨ ¬typed (slot + 1) "user.image" ∨ ¬typed (slot + 2) "user.text" ∨
      string opening "type" ≠ "input_text" ∨ string image "type" ≠ "input_image" ∨
      string closing "type" ≠ "input_text" ∨ string closing "text" ≠ "</image>" then none
  else
    let opening := string opening "text"
    let name ← attachmentName opening
    let caption := blocks[slot + 3]?.filter fun block =>
      decide (string block "type" = "input_text") && decide (typed (slot + 3) "user.text") &&
        name.toList.isPrefixOf (string block "text").toList
    let source := opening ++ "\n</image>"
    return {
      caption := caption.map fun block =>
        .ofList ((string block "text").toList.drop name.toList.length)
      consumed := if caption.isSome then 4 else 3
      image := embeddedImage image
      name
      source := caption.elim source fun block => source ++ "\n" ++ string block "text" }

abbrev Held := Option (EntryId × String)

def flush (role : Role) : Held → Projecting Unit
  | some (id, content) => message id role content
  | none => pure ()

def attached (role : Role) (id : EntryId) (attachment : Attachment) (held : Held) :
    Projecting Unit := do
  flush role held
  note (decide (maxText < attachment.source.utf8ByteSize))
  push id (source ("Image attachment · " ++ attachment.name) attachment.source)
  let pictureId ← entryId id 1
  push pictureId (picture attachment.image .user)
  match attachment.caption with
  | none => pure ()
  | some caption => do
    let caption ← clip caption maxText
    let captionId ← entryId id 3
    message captionId role caption

def holdWords (id : EntryId) (content : String) (held : Held) : Projecting Held :=
  if content.isEmpty then pure held
  else do
    let (id, words) := held.getD (id, "")
    let words := if !words.isEmpty && decide (words.utf8ByteSize < maxText) then words ++ "\n"
      else words
    let more ← clip content (maxText - words.utf8ByteSize)
    return some (id, words ++ more)

def replyTo (readers : Readers) (role : Role) (record : Value) (content : String) :
    Projecting (Option EntryKind) :=
  if role = .user then questionReply readers record content else pure none

def textSlot (readers : Readers) (role : Role) (record : Value) (slot count : ℕ) (id : EntryId)
    (content : String) (held : Held) : Projecting Held := do
  match ← replyTo readers role record content with
  | some reply => do
    flush role held
    push id reply
    return none
  | none =>
    match if role = .user then contextLabel record slot count else none with
    | some label => do
      flush role held
      note (decide (maxText < content.utf8ByteSize))
      push id (source label content)
      return none
    | none => holdWords id content held

def slot (readers : Readers) (role : Role) (record : Value) (index count : ℕ) (id : EntryId)
    (block : Value) (held : Held) : Projecting Held :=
  if textBlock block then textSlot readers role record index count id (string block "text") held
  else if string block "type" = "input_image" then
    match role.author with
    | none => return held
    | some author => do
      flush role held
      push id (picture (embeddedImage block) author)
      return none
  else return held

def attachmentAt (role : Role) (payload : Value) (blocks : List Value) (index : ℕ) :
    Option Attachment :=
  (if role = .user then attachment payload blocks index else none).filter fun attachment =>
    decide (index + attachment.consumed ≤ maxBlocks)

def slots (readers : Readers) (role : Role) (base : ℕ) (record : Value) (blocks : List Value) :
    ℕ → ℕ → Held → Projecting Unit
  | 0, _, held => flush role held
  | turns + 1, index, held =>
    if min blocks.length maxBlocks ≤ index then flush role held
    else do
      let id ← entryId base index
      match attachmentAt role (Mirror.index record "payload") blocks index with
      | some attachment => do
        attached role id attachment held
        slots readers role base record blocks turns (index + attachment.consumed) none
      | none =>
        match blocks[index]? with
        | none => throw .index
        | some block => do
          let held ← slot readers role record index blocks.length id block held
          slots readers role base record blocks turns (index + 1) held

def codexMessage (readers : Readers) (base : ℕ) (record : Value) : Projecting Unit :=
  let payload := index record "payload"
  let role := if string payload "channel" = "analysis" then some .thought
    else Role.of (string payload "role")
  match role with
  | none => pure ()
  | some role =>
    match (index payload "content").asArray with
    | none => do
      let content ← text (index payload "content")
      message base role content
    | some blocks => do
      note (decide (maxBlocks < blocks.length))
      slots readers role base record blocks (min blocks.length maxBlocks) 0 none

end Messages

section Codex

def retainedAnswers (readers : Readers) (base : ℕ) : ℕ → List Value → Projecting Unit
  | _, [] => pure ()
  | index, answer :: answers => do
    match ← retainedAnswer readers answer "order" with
    | some notice => do
      let id ← entryId base (index + 1)
      push id notice
    | none => pure ()
    retainedAnswers readers base (index + 1) answers

def compact (readers : Readers) (base : ℕ) (payload : Value) : Projecting Unit := do
  let message := string payload "message"
  note (decide (maxText < message.utf8ByteSize))
  push base (compacted message)
  match (index (index payload "retained_context") "verified_answers").asArray with
  | none => pure ()
  | some answers => do
    note (decide (maxBlocks ≤ answers.length))
    retainedAnswers readers base 0 (answers.take (maxBlocks - 1))

def tokenCount (payload : Value) : Projecting Unit :=
  let info := index payload "info"
  match (index info "model_context_window").asNat.filter fun size => decide (0 < size),
      (index (index info "last_token_usage") "total_tokens").asNat with
  | some size, some used =>
    modify fun p => { p with transcript := { p.transcript with usage := some ⟨none, size, used⟩ } }
  | _, _ => pure ()

def responseItem (readers : Readers) (base : ℕ) (record payload : Value) : Projecting Unit :=
  match string payload "type" with
  | "message" => codexMessage readers base record
  | "reasoning" => do
    let summary ← text (index payload "summary")
    message base .thought summary
  | "function_call" =>
    tool readers base (string payload "call_id") (string payload "name") (index payload "arguments")
  | "custom_tool_call" =>
    tool readers base (string payload "call_id") (string payload "name") (index payload "input")
  | "function_call_output" =>
    output (string payload "call_id") (index payload "output") .completed
  | "custom_tool_call_output" =>
    output (string payload "call_id") (index payload "output") .completed
  | _ => pure ()

def codex (readers : Readers) (base : ℕ) (record : Value) : Projecting Unit :=
  let payload := index record "payload"
  match string record "type" with
  | "session_meta" => session ((codexSession payload).getD "") (string payload "cwd")
  | "turn_context" => do
    reportedOption .model "model" (string payload "model")
    reportedOption .thoughtLevel "thinking" (string payload "effort")
  | "compacted" => compact readers base payload
  | "retained_context" =>
    if string payload "type" = "verified_answer" then do
      match ← retainedAnswer readers payload "acceptance_order" with
      | some notice => push base notice
      | none => pure ()
    else pure ()
  | "event_msg" => if string payload "type" = "token_count" then tokenCount payload else pure ()
  | "response_item" => responseItem readers base record payload
  | _ => pure ()

end Codex

end Projection

section Parsing

def splitInclusive : List UInt8 → List (List UInt8)
  | [] => []
  | byte :: rest =>
    if byte = newline then [byte] :: splitInclusive rest
    else
      match splitInclusive rest with
      | [] => [[byte]]
      | line :: lines => (byte :: line) :: lines

def TranscriptAgent.recordLimit : TranscriptAgent → ℕ
  | .codex => tail
  | .claude => maxRecord

def baseId (start : ℕ) : Option ℕ :=
  if (start + 1) * maxBlocks ≤ u64Max then some ((start + 1) * maxBlocks) else none

def readRecord (readers : Readers) (agent : TranscriptAgent) (base : ℕ) (seen : List String)
    (record : Value) : Projecting (List String) :=
  match agent with
  | .codex => do
    Projection.codex readers base record
    return seen
  | .claude =>
    let uuid := string record "uuid"
    if uuid.isEmpty then do
      Projection.claude readers base record
      return seen
    else if limited uuid maxId ∈ seen then return seen
    else do
      Projection.claude readers base record
      return limited uuid maxId :: seen

def readLines (readers : Readers) (agent : TranscriptAgent) :
    ℕ → List String → List (List UInt8) → Projecting Unit
  | _, _, [] => pure ()
  | start, seen, line :: lines =>
    let offset := min (start + line.length) u64Max
    -- A writer may be halfway through its final record.
    if line.getLast? ≠ some newline then pure ()
    else if agent.recordLimit < line.length then do
      Projection.note true
      readLines readers agent offset seen lines
    else
      match readers.value line with
      | none => do
        Projection.note (decide (maxRecord < line.length))
        readLines readers agent offset seen lines
      | some record =>
        if maxRecord < line.length ∧ ¬Projection.imageRecord record then do
          Projection.note true
          readLines readers agent offset seen lines
        else
          match baseId start with
          | none => pure ()
          | some base => do
            let seen ← readRecord readers agent base seen record
            readLines readers agent offset seen lines

def Projection.start (agent : TranscriptAgent) (offset : ℕ) : Projection where
  answered := ∅
  background := .empty
  names := ∅
  transcript :=
    { Transcript.new agent.displayName with readOnly := true, truncated := decide (0 < offset) }
  tools := ∅

def project (readers : Readers) (agent : TranscriptAgent) (bytes : List UInt8) (offset : ℕ) :
    Except Fault Unit × Projection :=
  exec (readLines readers agent offset [] (splitInclusive bytes)) (.start agent offset)

def parse (readers : Readers) (agent : TranscriptAgent) (bytes : List UInt8) (offset : ℕ) :
    Except Fault Transcript :=
  let (ended, p) := project readers agent bytes offset
  ended.map fun _ =>
    let keep := Acp.keepFrom p.transcript.entries
    if 0 < keep then
      { p.transcript with entries := p.transcript.entries.drop keep, truncated := true }
    else p.transcript

end Parsing

end Sheprd.Mirror
