import Dialogue.Config.Basic
import Dialogue.Number.Numeral
/-!
# Settings

The settings a configuration takes from options: their names on the command line, whether they
take a value, and what a value does to the configuration.
-/

namespace Dialogue

/-- A setting of the configuration that an option names. Part of `ContextConfig`. -/
inductive Setting where
  | contextSize | keep | batchSize | predict | prompt | antiprompt | interactive | userFirst
  | instruct | multiline | escapes | inputBos | inputLead | inputTail | cachePath | cacheAll
  | cacheReadOnly | negativePrompt | guidanceScale | seed | maxDecodeFailures | transcriptPath
deriving DecidableEq, Repr

namespace Setting

/-- The long names of the options, without the dashes. -/
def longNames : List (String × Setting) :=
  [("ctx-size", contextSize), ("keep", keep), ("batch-size", batchSize), ("n-predict", predict),
   ("prompt", prompt), ("reverse-prompt", antiprompt), ("interactive", interactive),
   ("interactive-first", userFirst), ("instruct", instruct), ("ins", instruct),
   ("multiline-input", multiline), ("escape", escapes), ("in-prefix-bos", inputBos),
   ("in-prefix", inputLead), ("in-suffix", inputTail), ("prompt-cache", cachePath),
   ("prompt-cache-all", cacheAll), ("prompt-cache-ro", cacheReadOnly),
   ("cfg-negative-prompt", negativePrompt), ("cfg-scale", guidanceScale), ("seed", seed),
   ("max-decode-failures", maxDecodeFailures), ("transcript", transcriptPath)]

/-- The one-letter names of the options. -/
def shortNames : List (Char × Setting) :=
  [('c', contextSize), ('b', batchSize), ('n', predict), ('p', prompt), ('r', antiprompt),
   ('i', interactive), ('e', escapes), ('s', seed)]

/-- Whether the option takes no value. -/
def isFlag : Setting → Bool
  | interactive | userFirst | instruct | multiline | escapes | inputBos | cacheAll
  | cacheReadOnly => true
  | _ => false

/-- Whether the option may stand more than once. -/
def repeats (s : Setting) : Bool := s = antiprompt

/-- Whether a value of its own argument may be a negative number. -/
def allowsNegative (s : Setting) : Bool := s = keep || s = predict

/-- Turns a flag on. Settings that take a value stay as they are. -/
def turnOn (c : Config) : Setting → Config
  | interactive => { c with interactive := true }
  | userFirst => { c with userFirst := true }
  | instruct => { c with instruct := true }
  | multiline => { c with multiline := true }
  | escapes => { c with escapes := true }
  | inputBos => { c with inputBos := true }
  | cacheAll => { c with cacheAll := true }
  | cacheReadOnly => { c with cacheReadOnly := true }
  | _ => c

/-- An integer of a range. -/
def integerIn? (low high : Int) (value : String) : Option Int :=
  (Number.integer? value.toList).filter fun n => low ≤ n ∧ n ≤ high

/-- A natural number below `2 ^ 32`. It may be signed. -/
def word? (value : String) : Option Nat := (integerIn? 0 0xFFFFFFFF value).map Int.toNat

/-- A signed 32-bit number. -/
def signedWord? (value : String) : Option Int := integerIn? (-0x80000000) 0x7FFFFFFF value

/-- A natural number below `2 ^ 64`. It takes no minus sign. -/
def longWord? (value : String) : Option Nat :=
  (Number.natural? value.toList).filter (· ≤ 0xFFFFFFFFFFFFFFFF)

/-- Gives a setting the value that was read, or rejects the value. -/
def validated {α : Type} (value? : Option α) (set : α → Config) : Except OptionError Config :=
  match value? with
  | some value => .ok (set value)
  | none => .error .valueValidation

/-- A path. An empty text counts as no value at all. -/
def path (value : String) (set : String → Config) : Except OptionError Config :=
  if value = "" then .error .invalidValue else .ok (set value)

/-- Gives a setting its value. Flags stay as they are. -/
def assign (c : Config) (value : String) : Setting → Except OptionError Config
  | contextSize => validated (word? value) fun n => { c with contextSize := n }
  | keep => validated (signedWord? value) fun n => { c with keep := some n }
  | batchSize => validated (longWord? value) fun n => { c with batchSize := n }
  | predict => validated (signedWord? value) fun n => { c with predict := n }
  | prompt => .ok { c with prompt := value }
  | antiprompt => .ok { c with antiprompts := c.antiprompts ++ [value] }
  | inputLead => .ok { c with inputLead := value }
  | inputTail => .ok { c with inputTail := value }
  | cachePath => path value fun p => { c with cachePath := some p }
  | negativePrompt => .ok { c with negativePrompt := value }
  | guidanceScale =>
    validated (Number.single? value.toList) fun x => { c with guidanceScale := x }
  | seed => validated (word? value) fun n => { c with seed := some n }
  | maxDecodeFailures => validated (word? value) fun n => { c with maxDecodeFailures := n }
  | transcriptPath => path value fun p => { c with transcriptPath := some p }
  | _ => .ok c

end Setting

end Dialogue
