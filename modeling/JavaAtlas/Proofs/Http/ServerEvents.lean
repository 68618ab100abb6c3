import JavaAtlas.Http.Router
import JavaAtlas.Proofs.Json.Document

/-!
# Server-sent events read back

A reader of server-sent events cuts a text into lines, wherever one of the three line ends stands, and takes the
lines up to an empty one together. What is sent with a name and a document is read back as that name with the
compact text of the document, whatever the texts in it: the compact form has no line end in it, so no text in a
document can end its line or bring an event about.
-/

namespace JavaAtlas.Http

/-- An event as a reader hands it on. -/
structure Message where
  name : String
  data : String
deriving DecidableEq, Repr

/-! ### Reading -/

def isLineEnd (c : Char) : Bool :=
  c == '\n' || c == '\r'

/-- The lines of a text that goes on a line. A carriage return with a line feed behind it is one line end; what no
line end follows is no line yet. -/
def linesFrom (line : List Char) : List Char → List (List Char)
  | [] => []
  | '\r' :: '\n' :: rest => line :: linesFrom [] rest
  | c :: rest => if isLineEnd c then line :: linesFrom [] rest else linesFrom (line ++ [c]) rest

/-- The name and the value of the field on a line: a colon parts them, and one blank behind it does not count. -/
def fieldOn (line : List Char) : String × List Char :=
  let value := (line.dropWhile (· != ':')).drop 1
  (String.ofList (line.takeWhile (· != ':')), if value.head? = some ' ' then value.tail else value)

/-- The messages in some lines, behind the fields of a message that is not complete yet: its name and the lines of
its data. An empty line completes a message, unless it has no data; fields of other names are passed over. -/
def messagesFrom (name : List Char) (data : List (List Char)) : List (List Char) → List Message
  | [] => []
  | [] :: rest =>
    if data.isEmpty then messagesFrom "message".toList [] rest
    else
      ⟨String.ofList name, String.ofList (['\n'].intercalate data)⟩ :: messagesFrom "message".toList [] rest
  | line :: rest =>
    match fieldOn line with
    | ("event", value) => messagesFrom value data rest
    | ("data", value) => messagesFrom name (data ++ [value]) rest
    | _ => messagesFrom name data rest

/-- The messages in some lines of which the first opens a message. -/
def messagesIn (lines : List (List Char)) : List Message :=
  messagesFrom "message".toList [] lines

def messages (text : String) : List Message :=
  messagesIn (linesFrom [] text.toList)

/-! ### What is sent is read back -/

variable {line chars rest : List Char}

theorem linesFrom_append_lineFeed (h : ∀ c ∈ chars, isLineEnd c = false) :
    linesFrom line (chars ++ '\n' :: rest) = (line ++ chars) :: linesFrom [] rest := by
  induction chars generalizing line with
  | nil =>
    rw [List.append_nil]
    rfl
  | cons c chars ih =>
    obtain ⟨hc, hchars⟩ := List.forall_mem_cons.1 h
    have hreturn : c ≠ '\r' := fun heq => absurd (heq ▸ hc) (by decide)
    rw [List.cons_append, linesFrom.eq_3 _ _ _ fun _ heq _ => hreturn heq, hc, if_neg Bool.false_ne_true, ih hchars,
      List.append_assoc]
    rfl

theorem isLineEnd_of_printing (h : Json.Printing chars) : ∀ c ∈ chars, isLineEnd c = false := by
  intro c hc
  have hprinting := h c hc
  rw [isLineEnd, Bool.or_eq_false_iff, beq_eq_false_iff_ne, beq_eq_false_iff_ne]
  exact ⟨fun heq => absurd (heq ▸ hprinting) (by decide), fun heq => absurd (heq ▸ hprinting) (by decide)⟩

/-- The field of a line is its name in front of a colon with a blank. -/
theorem messagesFrom_event (value name : List Char) (data lines : List (List Char)) :
    messagesFrom name data (("event: ".toList ++ value) :: lines) = messagesFrom value data lines := rfl

theorem messagesFrom_data (value name : List Char) (data lines : List (List Char)) :
    messagesFrom name data (("data: ".toList ++ value) :: lines) = messagesFrom name (data ++ [value]) lines := rfl

theorem toList_serverEvent (name : String) (document : Json.Document) : (serverEvent name document).toList =
    ("event: ".toList ++ name.toList) ++ '\n' :: (("data: ".toList ++ document.compact.toList) ++ '\n' :: ['\n']) := by
  unfold serverEvent
  simp only [String.toList_append, List.append_assoc]
  rfl

/-- **A server-sent event is read back**, and what follows it is read as if it stood alone. -/
theorem messagesIn_serverEvent (name : String) (document : Json.Document) (rest : List Char)
    (hname : Json.Printing name.toList) :
    messagesIn (linesFrom [] ((serverEvent name document).toList ++ rest)) =
      ⟨name, document.compact⟩ :: messagesIn (linesFrom [] rest) := by
  have hevent : Json.Printing ("event: ".toList ++ name.toList) := .append (by simp [Json.Printing]) hname
  have hdata : Json.Printing ("data: ".toList ++ document.compact.toList) :=
    .append (by simp [Json.Printing]) (Json.printing_compact document)
  have hshape : ∀ event data : List Char, event ++ '\n' :: (data ++ '\n' :: ['\n']) ++ rest =
      event ++ '\n' :: (data ++ '\n' :: '\n' :: rest) := by
    intro event data
    simp only [List.append_assoc, List.cons_append, List.nil_append]
  have hlines : linesFrom [] ((serverEvent name document).toList ++ rest) =
      ("event: ".toList ++ name.toList) :: ("data: ".toList ++ document.compact.toList) :: [] :: linesFrom [] rest := by
    rw [toList_serverEvent, hshape, linesFrom_append_lineFeed (isLineEnd_of_printing hevent),
      linesFrom_append_lineFeed (isLineEnd_of_printing hdata)]
    rfl
  have hdispatch : ∀ value : List Char, messagesFrom name.toList ([] ++ [value]) ([] :: linesFrom [] rest) =
      ⟨String.ofList name.toList, String.ofList (['\n'].intercalate [value])⟩ :: messagesIn (linesFrom [] rest) :=
    fun _ => rfl
  rw [hlines, messagesIn, messagesFrom_event, messagesFrom_data, hdispatch, String.ofList_toList,
    List.intercalate_singleton, String.ofList_toList]

example : messages (serverEvent "class" (.text "a\n\nevent: error")) = [⟨"class", "\"a\\n\\nevent: error\""⟩] := by
  decide

end JavaAtlas.Http
