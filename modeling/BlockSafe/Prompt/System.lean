import BlockSafe.Target.Profile

/-!
# System prompts

The system prompt tells a provider what it may write for a target.  A retry adds a suffix on a
new line: one asks again after a reply without a program, the other names the violations of the
last program, first plainly and then strictly.
-/

namespace BlockSafe

/-! ## The base prompt -/

/-- What may be used, the same for every target. -/
def allowedPatterns : List Text := texts
  ["BLOCK-COMPATIBLE PATTERNS (use these):",
   "- Event handlers: input.onButtonPressed(Button.A, function () \x7b \x7d)",
   "- Forever loops: basic.forever(function () \x7b \x7d)",
   "- Variables with let: let x = 0",
   "- Control flow: if/else, while, for (let i = 0; i < n; i++), for (let v of list)",
   "- Random choice from a list: options._pickRandom()",
   "- Named functions: function doSomething() \x7b \x7d"]

/-- What every program must keep to. -/
def hardRequirements : List Text := texts
  ["BLOCK-SAFE REQUIREMENTS (hard):",
   "- No grey JavaScript blocks: every line must map to editable blocks",
   "- Every variable declaration must have an initializer (let x = ...)",
   "- For loops must be exactly: for (let i = 0; i < limit; i++) or for (let i = 0; i <= "
    ++ "limit; i++)",
   "- Event registrations and function declarations must be top-level",
   "- Do not use optional/default parameters in user-defined functions",
   "- Do not return a value inside callbacks/event handlers",
   "- Do not pass more arguments than a block signature supports",
   "- In statements, assignment operators are limited to =, +=, -="]

/-- What has no block. -/
def forbiddenPatterns : List Text := texts
  ["AVOID (these won't decompile to blocks):",
   "- Arrow functions (=>), ternary (? :), destructuring, spread/rest (...)",
   "- const, var (use let for all variables)",
   "- Template literals for strings (use \"string\" + variable, not `$\x7b\x7d`). Exception: "
    ++ "backtick image literals like img`...` and showLeds(`...`) ARE allowed.",
   "- Optional chaining (?.), nullish coalescing (??)",
   "- for...in loops",
   "- import/export, async/await, yield, eval",
   "- Classes, interfaces, type aliases, enums, generics in user code",
   "- Higher-order array methods (map/filter/reduce/forEach)",
   "- randint(...) (use list._pickRandom() for random selections)",
   "- null, undefined, casts (as), bitwise operators (| & ^ << >> >>>), bitwise compound "
    ++ "assignments",
   "- setTimeout, setInterval, console, Promise",
   "- Comments, markdown fences, prose after code"]

/-- The form of a reply. -/
def replyFormat : List Text := texts
  ["RESPONSE FORMAT:",
   "- Return ONLY a JSON object with this exact shape:",
   "- \x7b\"feedback\":[\"short note\"],\"code\":\"MakeCode Static TypeScript with \\\\n "
    ++ "escapes\"\x7d",
   "- feedback must be an array of one or more short strings",
   "- code must be MakeCode Static TypeScript encoded as a JSON string (use escaped \\n for "
    ++ "new lines, no markdown fences)",
   "- Straight quotes, ASCII only, function () \x7b \x7d handlers",
   "- If PAGE_ERRORS are provided, treat them as failing diagnostics and prioritise resolving "
    ++ "all of them",
   "- If CONVERSION_DIALOG is provided, ensure the output converts from JavaScript back to "
    ++ "Blocks in MakeCode"]

/-- The introduction for a target. -/
def introduction (profile : Profile) : List Text :=
  ["You are a Microsoft MakeCode assistant for ".toList ++ profile.title ++ ['.'],
   "Your ONLY job is to produce MakeCode Static TypeScript that the MakeCode editor can ".toList
     ++ "decompile into visual BLOCKS for ".toList ++ profile.title
     ++ ". Every line you output must be representable as a block. ".toList
     ++ "If a language feature has no block equivalent, do not use it.".toList]

/-- The namespaces and calls of a target. -/
def apiSection (profile : Profile) : List Text :=
  ["ALLOWED NAMESPACES: ".toList ++ commaJoin profile.namespaces
     ++ ". Prefer event handlers and forever/update loops.".toList,
   [], "AVAILABLE APIs:", profile.apis]
  ++ if profile.extras.isEmpty then [] else [] :: profile.extras

/-- The sections of the prompt for a target; an empty line stands between neighbours. -/
def promptSections (profile : Profile) : List (List Text) :=
  [introduction profile, apiSection profile, allowedPatterns, hardRequirements,
   forbiddenPatterns, replyFormat,
   ["TARGET SCOPE: Use ONLY ".toList ++ profile.title
      ++ " APIs listed above. Never mix APIs from other targets.".toList],
   ["EXAMPLE:", profile.sample],
   ["If unsure about an API, return a minimal working program for ".toList ++ profile.title
      ++ ['.']]]

/-- The system prompt for a target. -/
def systemPrompt (target : Target) : Text :=
  Text.join "\n\n" ((promptSections target.profile).map joinLines)

/-! ## Suffixes -/

/-- The last line of every suffix. -/
def mandate : Text :=
  "MANDATE: Output only compact JSON with keys feedback (array) and code (string). No prose."

/-- The suffix after a reply without a program. -/
def emptySuffix : Text :=
  "Your last message had empty code. ".toList
    ++ "Return valid JSON only with feedback[] and code string.\n".toList ++ mandate

/-- The suffix of the validation retry number `retry`, counted from zero, after a program with
`violations`. -/
def violationSuffix (violations : List Text) (retry : Int) : Text :=
  (if retry = 0 then
      "Previous code used: ".toList ++ commaJoin violations
        ++ ". Remove ALL forbidden constructs and return fully Blocks-compatible code.".toList
    else
      "STRICT MODE: Output a smaller program that fully decompiles to Blocks. ".toList
        ++ "Absolutely no: ".toList ++ commaJoin violations ++ ['.'])
    ++ '\n' :: mandate

/-- A system prompt with a suffix on a new line; an empty suffix adds nothing. -/
def withSuffix (prompt suffix : Text) : Text :=
  prompt ++ if suffix.isEmpty then [] else '\n' :: suffix

end BlockSafe
