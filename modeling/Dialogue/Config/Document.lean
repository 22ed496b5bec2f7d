import Dialogue.Config.Setting
import Dialogue.Json.Skip
/-!
# Configuration files

A configuration is read from a JSON object with a field per setting, or from a list that gives the
settings in order. What is missing keeps its default, fields of other names are skipped, and no
field may stand twice. The lexemes are read one by one, so the first fault of the text decides.
-/

namespace Dialogue

open Json (Lexeme Numeric Skip)

namespace Setting

/-- The fields of the object, in the order of the list. -/
def fieldNames : List (String × Setting) :=
  [("n_ctx", contextSize), ("n_keep", keep), ("n_batch", batchSize), ("n_predict", predict),
   ("prompt", prompt), ("antiprompt", antiprompt), ("interactive", interactive),
   ("interactive_first", userFirst), ("instruct", instruct), ("multiline_input", multiline),
   ("escape", escapes), ("input_prefix_bos", inputBos), ("input_prefix", inputLead),
   ("input_suffix", inputTail), ("prompt_cache", cachePath), ("prompt_cache_all", cacheAll),
   ("prompt_cache_ro", cacheReadOnly), ("cfg_negative_prompt", negativePrompt),
   ("cfg_scale", guidanceScale), ("seed", seed), ("max_decode_failures", maxDecodeFailures),
   ("transcript", transcriptPath)]

/-- An integer of a range. -/
def numericIn? (low high : Int) (x : Numeric) : Option Int :=
  match x with
  | .natural n => if low ≤ n ∧ n ≤ high then some n else none
  | .negative n => if low ≤ -(n : Int) ∧ -(n : Int) ≤ high then some (-(n : Int)) else none
  | .real _ _ => none

/-- Gives a setting an integer of a range. -/
def putInteger (low high : Int) (x : Numeric) (set : Int → Config) :
    Except DocumentError Config :=
  match numericIn? low high x with
  | some n => .ok (set n)
  | none => .error .data

/-- Gives a setting the number that stands in its field. -/
def putNumber (c : Config) (x : Numeric) : Setting → Except DocumentError Config
  | contextSize => putInteger 0 0xFFFFFFFF x fun n => { c with contextSize := n.toNat }
  | keep => putInteger (-0x80000000) 0x7FFFFFFF x fun n => { c with keep := some n }
  | batchSize => putInteger 0 0xFFFFFFFFFFFFFFFF x fun n => { c with batchSize := n.toNat }
  | predict => putInteger (-0x80000000) 0x7FFFFFFF x fun n => { c with predict := n }
  | guidanceScale => .ok { c with guidanceScale := x.toSingle }
  | seed => putInteger 0 0xFFFFFFFF x fun n => { c with seed := some n.toNat }
  | maxDecodeFailures => putInteger 0 0xFFFFFFFF x fun n => { c with maxDecodeFailures := n.toNat }
  | _ => .error .data

/-- Gives a setting the text that stands in its field. -/
def putText (c : Config) (s : String) : Setting → Except DocumentError Config
  | prompt => .ok { c with prompt := s }
  | inputLead => .ok { c with inputLead := s }
  | inputTail => .ok { c with inputTail := s }
  | cachePath => .ok { c with cachePath := some s }
  | negativePrompt => .ok { c with negativePrompt := s }
  | transcriptPath => .ok { c with transcriptPath := some s }
  | _ => .error .data

/-- Gives a setting the truth value that stands in its field. -/
def putFlag (c : Config) (b : Bool) : Setting → Except DocumentError Config
  | interactive => .ok { c with interactive := b }
  | userFirst => .ok { c with userFirst := b }
  | instruct => .ok { c with instruct := b }
  | multiline => .ok { c with multiline := b }
  | escapes => .ok { c with escapes := b }
  | inputBos => .ok { c with inputBos := b }
  | cacheAll => .ok { c with cacheAll := b }
  | cacheReadOnly => .ok { c with cacheReadOnly := b }
  | _ => .error .data

/-- Leaves a setting unset that may be. -/
def putNull (c : Config) : Setting → Except DocumentError Config
  | keep => .ok { c with keep := none }
  | cachePath => .ok { c with cachePath := none }
  | seed => .ok { c with seed := none }
  | transcriptPath => .ok { c with transcriptPath := none }
  | _ => .error .data

end Setting

/-- Where the value that is read stands. -/
inductive Surrounding where
  /-- In a member of the object. -/
  | object
  /-- In the list, with these settings to come behind it. -/
  | list (rest : List Setting)
deriving DecidableEq, Repr

/-- What a configuration's lexemes have to go on with. -/
inductive DocumentPlace where
  /-- The object or the list. -/
  | start
  /-- The first member of the object, or its end. -/
  | firstMember
  /-- The name of a member. -/
  | key
  /-- The colon behind the name of a setting. -/
  | colon (s : Setting)
  /-- The colon behind another name. -/
  | skipColon
  /-- A value that is skipped. -/
  | skip (state : Skip)
  /-- The first item of the list, or its end. -/
  | firstItem (rest : List Setting)
  /-- The value of a setting. -/
  | value (s : Setting) (around : Surrounding)
  /-- The first text of a list of texts, or its end. -/
  | firstText (around : Surrounding)
  /-- A text of a list of texts. -/
  | text (around : Surrounding)
  /-- A comma or the end of a list of texts. -/
  | nextText (around : Surrounding)
  /-- A comma or the end of what the value stands in. -/
  | behind (around : Surrounding)
  /-- Nothing: the configuration is complete. -/
  | done
deriving DecidableEq, Repr

/-- How far the lexemes of a configuration were read. -/
structure DocumentReader where
  /-- The configuration so far. -/
  config : Config := {}
  /-- The settings whose names were met. -/
  named : List Setting := []
  /-- What has to come. -/
  place : DocumentPlace := .start
deriving DecidableEq, Repr

namespace DocumentReader

/-- The error of a value of the wrong kind. A scalar that cannot be read counts for its own error,
and what begins no value for the text's. -/
def mismatch : Lexeme → DocumentError
  | .string (.error e) _ => e
  | .number (.error e) _ => e
  | .word e => e
  | .closeObject | .closeList | .comma | .colon | .stray => .syntactic
  | _ => .data

/-- Reads the name of a member. -/
def readKey (r : DocumentReader) : Lexeme → Except DocumentError DocumentReader
  | .string name _ => do
    match Setting.fieldNames.lookup (← name) with
    | none => return { r with place := .skipColon }
    | some s =>
      if s ∈ r.named then throw .data
      else return { r with named := s :: r.named, place := .colon s }
  | _ => .error .syntactic

/-- Puts a value in its place. -/
def put (r : DocumentReader) (around : Surrounding) (config : Except DocumentError Config) :
    Except DocumentError DocumentReader :=
  config.map fun config => { r with config, place := .behind around }

/-- Reads the first lexeme of the value of a setting. -/
def readValue (r : DocumentReader) (s : Setting) (around : Surrounding) (l : Lexeme) :
    Except DocumentError DocumentReader :=
  match l with
  | .null => r.put around (s.putNull r.config)
  | .true => r.put around (s.putFlag r.config true)
  | .false => r.put around (s.putFlag r.config false)
  | .string (.ok text) _ => r.put around (s.putText r.config text)
  | .number (.ok x) _ => r.put around (s.putNumber r.config x)
  | .openList =>
    if s = .antiprompt then
      .ok { r with config := { r.config with antiprompts := [] }, place := .firstText around }
    else .error .data
  | l => .error (mismatch l)

/-- Reads a text of a list of texts. -/
def readText (r : DocumentReader) (around : Surrounding) :
    Lexeme → Except DocumentError DocumentReader
  | .string (.ok text) _ =>
    .ok { r with
      config := { r.config with antiprompts := r.config.antiprompts ++ [text] }
      place := .nextText around }
  | l => .error (mismatch l)

/-- Goes on behind a value in the list; behind the last setting only its end may come. -/
def nextItem (r : DocumentReader) : List Setting → Except DocumentError DocumentReader
  | [] => .error .syntactic
  | s :: rest => .ok { r with place := .value s (.list rest) }

/-- Reads one lexeme. -/
def read (r : DocumentReader) (l : Lexeme) : Except DocumentError DocumentReader :=
  match r.place, l with
  | .start, .openObject => .ok { r with place := .firstMember }
  | .start, .openList => .ok { r with place := .firstItem (Setting.fieldNames.map (·.2)) }
  | .start, l => .error (mismatch l)
  | .firstMember, .closeObject => .ok { r with place := .done }
  | .firstMember, l => r.readKey l
  | .key, l => r.readKey l
  | .colon s, .colon => .ok { r with place := .value s .object }
  | .skipColon, .colon => .ok { r with place := .skip (.value []) }
  | .skip state, l => do
    match ← state.read l with
    | .done => return { r with place := .behind .object }
    | state => return { r with place := .skip state }
  | .firstItem _, .closeList => .ok { r with place := .done }
  | .firstItem [], _ => .error .syntactic
  | .firstItem (s :: rest), l => r.readValue s (.list rest) l
  | .value s around, l => r.readValue s around l
  | .firstText around, .closeList => .ok { r with place := .behind around }
  | .firstText around, l => r.readText around l
  | .text around, l => r.readText around l
  | .nextText around, .comma => .ok { r with place := .text around }
  | .nextText around, .closeList => .ok { r with place := .behind around }
  | .behind .object, .comma => .ok { r with place := .key }
  | .behind .object, .closeObject => .ok { r with place := .done }
  | .behind (.list rest), .comma => r.nextItem rest
  | .behind (.list _), .closeList => .ok { r with place := .done }
  | _, _ => .error .syntactic

end DocumentReader

namespace Config

/-- The configuration that some lexemes give. -/
def ofLexemes (lexemes : List Lexeme) : Except DocumentError Config := do
  let r ← lexemes.foldlM DocumentReader.read {}
  if r.place = .done then return r.config else throw .truncated

/-- The configuration of a JSON text. -/
def ofJson (text : String) : Except DocumentError Config :=
  ofLexemes (Lexeme.ofText (Text.utf8 text))

/-- The configuration in the bytes of a file. Follows `ContextConfig.from_json_file`. -/
def ofFile (bytes : List UInt8) : Except ConfigError Config :=
  match Text.ofUtf8? bytes with
  | some text => (ofJson text).mapError .malformed
  | none => .error (.unreadable .invalidText)

end Config

end Dialogue
