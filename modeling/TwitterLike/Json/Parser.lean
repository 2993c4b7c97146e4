import TwitterLike.Json.Lexer

/-!
# The parser of JSON texts

`parser::sax_parse_internal` of `lib/json.hpp` with `json_sax_dom_parser`, as
`operator>>` runs them: the parse ends behind the first value.  The stack of open
structures is explicit, as in the source; `Derives` is the grammar without one.
The parser reads exactly what the grammar derives.
-/

namespace TwitterLike.JsonParser

open TwitterLike.ByteBuffer
open TwitterLike.JsonSerializer
open TwitterLike.JsonLexer

/-! ## The machine -/

abbrev Members := List (ByteString × Json)

/-- `*object_element = value`, where the key has been looked up with `operator[]`
in a `std::map`. -/
def setMember (key : ByteString) (value : Json) : Members → Members
  | [] => [(key, value)]
  | (other, old) :: members =>
      match compare key other with
      | .lt => (key, value) :: (other, old) :: members
      | .eq => (key, value) :: members
      | .gt => (other, old) :: setMember key value members

/-- An entry of `states`, with the structure on `ref_stack` that it belongs to. -/
inductive Frame where
  | array (elements : List Json)
  /-- the key is the one that `object_element` points to -/
  | object (members : Members) (key : ByteString)

/-- Where the loop of `sax_parse_internal` stands. -/
inductive Loop where
  /-- at the switch over `last_token` -/
  | reading (frames : List Frame) (lastToken : Token) (input : ByteString)
  /-- behind a value that has been parsed -/
  | evaluating (frames : List Frame) (value : Json) (input : ByteString)

/-- The separator behind a key and the first token of the value. -/
def parseSeparator (frames : List Frame) (members : Members) (key : ByteString)
    (input : ByteString) : Option Loop := do
  let (token, rest) ← scan input
  if token = .nameSeparator then
    let (lastToken, rest) ← scan rest
    some (.reading (.object members key :: frames) lastToken rest)
  else none

/-- The switch over `last_token`. -/
def read (frames : List Frame) (lastToken : Token) (input : ByteString) :
    Option Loop :=
  match lastToken with
  | .beginObject => do
      let (token, rest) ← scan input
      match token with
      | .endObject => some (.evaluating frames (.object []) rest)
      | .valueString key => parseSeparator frames [] key rest
      | _ => none
  | .beginArray => do
      let (token, rest) ← scan input
      if token = .endArray then some (.evaluating frames (.array []) rest)
      else some (.reading (.array [] :: frames) token rest)
  | .literalFalse => some (.evaluating frames (.boolean false) input)
  | .literalNull => some (.evaluating frames .null input)
  | .literalTrue => some (.evaluating frames (.boolean true) input)
  | .valueString content => some (.evaluating frames (.string content) input)
  | _ => none

/-- The evaluation of the innermost state behind a value. -/
def evaluate (frame : Frame) (frames : List Frame) (value : Json)
    (input : ByteString) : Option Loop := do
  let (token, rest) ← scan input
  match frame, token with
  | .array elements, .valueSeparator => do
      let (lastToken, rest) ← scan rest
      some (.reading (.array (elements ++ [value]) :: frames) lastToken rest)
  | .array elements, .endArray =>
      some (.evaluating frames (.array (elements ++ [value])) rest)
  | .object members key, .valueSeparator => do
      let (token, rest) ← scan rest
      match token with
      | .valueString next =>
          parseSeparator frames (setMember key value members) next rest
      | _ => none
  | .object members key, .endObject =>
      some (.evaluating frames (.object (setMember key value members)) rest)
  | _, _ => none

namespace Loop

/-- One turn of the loop that does not leave it. -/
def turn : Loop → Option Loop
  | reading frames lastToken input => read frames lastToken input
  | evaluating [] _ _ => none
  | evaluating (frame :: frames) value input => evaluate frame frames value input

/-- A turn reads a token or turns the last one into a value. -/
def size : Loop → ℕ
  | reading _ _ input => 2 * input.length + 1
  | evaluating _ _ input => 2 * input.length

end Loop

/-- The value of a token that is a value of its own. -/
def scalar : Token → Option Json
  | .literalFalse => some (.boolean false)
  | .literalNull => some .null
  | .literalTrue => some (.boolean true)
  | .valueString content => some (.string content)
  | _ => none

/-- What a turn can do. -/
inductive Turn : Loop → Loop → Prop
  | scalar {frames lastToken value input}
      (hvalue : scalar lastToken = some value) :
      Turn (.reading frames lastToken input) (.evaluating frames value input)
  | emptyObject {frames input rest}
      (hclose : scan input = some (.endObject, rest)) :
      Turn (.reading frames .beginObject input) (.evaluating frames (.object []) rest)
  | openObject {frames input key separator start lastToken rest}
      (hkey : scan input = some (.valueString key, separator))
      (hseparator : scan separator = some (.nameSeparator, start))
      (hfirst : scan start = some (lastToken, rest)) :
      Turn (.reading frames .beginObject input)
        (.reading (.object [] key :: frames) lastToken rest)
  | emptyArray {frames input rest} (hclose : scan input = some (.endArray, rest)) :
      Turn (.reading frames .beginArray input) (.evaluating frames (.array []) rest)
  | openArray {frames input lastToken rest} (hne : lastToken ≠ .endArray)
      (hfirst : scan input = some (lastToken, rest)) :
      Turn (.reading frames .beginArray input)
        (.reading (.array [] :: frames) lastToken rest)
  | nextElement {frames elements value input start lastToken rest}
      (hcomma : scan input = some (.valueSeparator, start))
      (hfirst : scan start = some (lastToken, rest)) :
      Turn (.evaluating (.array elements :: frames) value input)
        (.reading (.array (elements ++ [value]) :: frames) lastToken rest)
  | closeArray {frames elements value input rest}
      (hclose : scan input = some (.endArray, rest)) :
      Turn (.evaluating (.array elements :: frames) value input)
        (.evaluating frames (.array (elements ++ [value])) rest)
  | nextMember {frames members key value input behind next separator start
      lastToken rest}
      (hcomma : scan input = some (.valueSeparator, behind))
      (hkey : scan behind = some (.valueString next, separator))
      (hseparator : scan separator = some (.nameSeparator, start))
      (hfirst : scan start = some (lastToken, rest)) :
      Turn (.evaluating (.object members key :: frames) value input)
        (.reading (.object (setMember key value members) next :: frames)
          lastToken rest)
  | closeObject {frames members key value input rest}
      (hclose : scan input = some (.endObject, rest)) :
      Turn (.evaluating (.object members key :: frames) value input)
        (.evaluating frames (.object (setMember key value members)) rest)

section Turns

variable {loop next : Loop} {frames : List Frame} {members : Members}
  {key input : ByteString} {frame : Frame} {value : Json} {lastToken : Token}

theorem parseSeparator_eq_some_iff :
    parseSeparator frames members key input = some next ↔
      ∃ start lastToken rest, scan input = some (.nameSeparator, start) ∧
        scan start = some (lastToken, rest) ∧
        next = .reading (.object members key :: frames) lastToken rest := by
  simp only [parseSeparator, Option.bind_eq_bind, Option.bind_eq_some_iff]
  constructor
  · rintro ⟨⟨token, start⟩, hseparator, hparse⟩
    split_ifs at hparse with htoken
    obtain ⟨⟨lastToken, rest⟩, hfirst, heq⟩ := Option.bind_eq_some_iff.1 hparse
    cases heq
    cases htoken
    exact ⟨start, lastToken, rest, hseparator, hfirst, rfl⟩
  · rintro ⟨start, lastToken, rest, hseparator, hfirst, rfl⟩
    refine ⟨(.nameSeparator, start), hseparator, ?_⟩
    simp only [if_true, hfirst, Option.bind_some]

theorem turn_of_read (hread : read frames lastToken input = some next) :
    Turn (.reading frames lastToken input) next := by
  cases lastToken with
  | literalFalse | literalNull | literalTrue | valueString =>
      cases hread
      exact .scalar rfl
  | beginObject =>
      simp only [read, Option.bind_eq_bind, Option.bind_eq_some_iff] at hread
      obtain ⟨⟨token, rest⟩, hscan, hread⟩ := hread
      cases token with
      | endObject =>
          cases hread
          exact .emptyObject hscan
      | valueString key =>
          obtain ⟨start, lastToken, rest, hseparator, hfirst, rfl⟩ :=
            parseSeparator_eq_some_iff.1 hread
          exact .openObject hscan hseparator hfirst
      | _ => cases hread
  | beginArray =>
      simp only [read, Option.bind_eq_bind, Option.bind_eq_some_iff] at hread
      obtain ⟨⟨token, rest⟩, hscan, hread⟩ := hread
      split_ifs at hread with htoken
      · cases hread
        cases htoken
        exact .emptyArray hscan
      · cases hread
        exact .openArray htoken hscan
  | _ => cases hread

theorem turn_of_evaluate (hevaluate : evaluate frame frames value input = some next) :
    Turn (.evaluating (frame :: frames) value input) next := by
  simp only [evaluate, Option.bind_eq_bind, Option.bind_eq_some_iff] at hevaluate
  obtain ⟨⟨token, behind⟩, hscan, hevaluate⟩ := hevaluate
  cases frame with
  | array elements =>
      cases token with
      | valueSeparator =>
          obtain ⟨⟨lastToken, rest⟩, hfirst, heq⟩ :=
            Option.bind_eq_some_iff.1 hevaluate
          cases heq
          exact .nextElement hscan hfirst
      | endArray =>
          cases hevaluate
          exact .closeArray hscan
      | _ => cases hevaluate
  | object members key =>
      cases token with
      | valueSeparator =>
          obtain ⟨⟨token, separator⟩, hkey, hparse⟩ :=
            Option.bind_eq_some_iff.1 hevaluate
          cases token with
          | valueString next =>
              obtain ⟨start, lastToken, rest, hseparator, hfirst, rfl⟩ :=
                parseSeparator_eq_some_iff.1 hparse
              exact .nextMember hscan hkey hseparator hfirst
          | _ => cases hparse
      | endObject =>
          cases hevaluate
          exact .closeObject hscan
      | _ => cases hevaluate

theorem turn_eq_some_iff : loop.turn = some next ↔ Turn loop next := by
  constructor
  · intro hturn
    cases loop with
    | reading frames lastToken input => exact turn_of_read hturn
    | evaluating frames value input =>
        cases frames with
        | nil => cases hturn
        | cons frame frames => exact turn_of_evaluate hturn
  · intro hturn
    cases hturn with
    | @scalar _ lastToken _ _ hvalue =>
        cases lastToken <;> cases hvalue <;> rfl
    | emptyObject hclose =>
        simp only [Loop.turn, read, hclose, Option.bind_eq_bind, Option.bind_some]
    | openObject hkey hseparator hfirst =>
        simp only [Loop.turn, read, hkey, Option.bind_eq_bind, Option.bind_some]
        exact parseSeparator_eq_some_iff.2 ⟨_, _, _, hseparator, hfirst, rfl⟩
    | emptyArray hclose =>
        simp only [Loop.turn, read, hclose, Option.bind_eq_bind, Option.bind_some,
          if_true]
    | openArray hne hfirst =>
        simp only [Loop.turn, read, hfirst, Option.bind_eq_bind, Option.bind_some,
          if_neg hne]
    | nextElement hcomma hfirst =>
        simp only [Loop.turn, evaluate, hcomma, hfirst, Option.bind_eq_bind,
          Option.bind_some]
    | closeArray hclose =>
        simp only [Loop.turn, evaluate, hclose, Option.bind_eq_bind,
          Option.bind_some]
    | nextMember hcomma hkey hseparator hfirst =>
        simp only [Loop.turn, evaluate, hcomma, hkey, Option.bind_eq_bind,
          Option.bind_some]
        exact parseSeparator_eq_some_iff.2 ⟨_, _, _, hseparator, hfirst, rfl⟩
    | closeObject hclose =>
        simp only [Loop.turn, evaluate, hclose, Option.bind_eq_bind,
          Option.bind_some]

theorem Turn.size_lt (hturn : Turn loop next) : next.size < loop.size := by
  cases hturn <;> simp only [Loop.size]
  case scalar => omega
  case emptyObject hclose | emptyArray hclose | closeArray hclose |
      closeObject hclose =>
    have hclose := length_scan hclose
    omega
  case openArray hfirst =>
    have hfirst := length_scan hfirst
    omega
  case nextElement hcomma hfirst =>
    have hcomma := length_scan hcomma
    have hfirst := length_scan hfirst
    omega
  case openObject hkey hseparator hfirst =>
    have hkey := length_scan hkey
    have hseparator := length_scan hseparator
    have hfirst := length_scan hfirst
    omega
  case nextMember hcomma hkey hseparator hfirst =>
    have hcomma := length_scan hcomma
    have hkey := length_scan hkey
    have hseparator := length_scan hseparator
    have hfirst := length_scan hfirst
    omega

end Turns

/-- The loop of `sax_parse_internal`, with nothing for a parse error. -/
def parseFrom (loop : Loop) : Option (Json × ByteString) :=
  match loop with
  | .evaluating [] value input => some (value, input)
  | loop =>
      match _hturn : loop.turn with
      | none => none
      | some next => parseFrom next
termination_by loop.size
decreasing_by exact (turn_eq_some_iff.1 _hturn).size_lt

/-- `operator>>`: the value and the input that has not been read. -/
def parse (input : ByteString) : Option (Json × ByteString) := do
  let rest ← skipBom input
  let (lastToken, rest) ← scan rest
  parseFrom (.reading [] lastToken rest)

/-! ## The grammar -/

/-- The object of the members in the order of the text: of two members with the
same key the later one stays. -/
def collect (members : Members) : Members :=
  members.foldl (fun members member => setMember member.1 member.2 members) []

inductive Phrase where
  | value (value : Json)
  /-- the elements of an array, at least one -/
  | elements (elements : List Json)
  /-- the members of an object, at least one -/
  | members (members : Members)

inductive Derives : Phrase → ByteString → Prop
  | scalar {token value text} (hvalue : scalar token = some value)
      (htext : Lexed token text) : Derives (.value value) text
  | emptyArray {opening closing} (hopening : Lexed .beginArray opening)
      (hclosing : Lexed .endArray closing) :
      Derives (.value (.array [])) (opening ++ closing)
  | array {opening text closing elements} (hopening : Lexed .beginArray opening)
      (helements : Derives (.elements elements) text)
      (hclosing : Lexed .endArray closing) :
      Derives (.value (.array elements)) (opening ++ text ++ closing)
  | emptyObject {opening closing} (hopening : Lexed .beginObject opening)
      (hclosing : Lexed .endObject closing) :
      Derives (.value (.object [])) (opening ++ closing)
  | object {opening text closing members} (hopening : Lexed .beginObject opening)
      (hmembers : Derives (.members members) text)
      (hclosing : Lexed .endObject closing) :
      Derives (.value (.object (collect members))) (opening ++ text ++ closing)
  | firstElement {value text} (hvalue : Derives (.value value) text) :
      Derives (.elements [value]) text
  | nextElement {elements value texts comma text}
      (helements : Derives (.elements elements) texts)
      (hcomma : Lexed .valueSeparator comma)
      (hvalue : Derives (.value value) text) :
      Derives (.elements (elements ++ [value])) (texts ++ comma ++ text)
  | firstMember {key value keyText separator text}
      (hkey : Lexed (.valueString key) keyText)
      (hseparator : Lexed .nameSeparator separator)
      (hvalue : Derives (.value value) text) :
      Derives (.members [(key, value)]) (keyText ++ separator ++ text)
  | nextMember {members key value texts comma keyText separator text}
      (hmembers : Derives (.members members) texts)
      (hcomma : Lexed .valueSeparator comma)
      (hkey : Lexed (.valueString key) keyText)
      (hseparator : Lexed .nameSeparator separator)
      (hvalue : Derives (.value value) text) :
      Derives (.members (members ++ [(key, value)]))
        (texts ++ comma ++ (keyText ++ separator ++ text))

theorem collect_concat (members : Members) (key : ByteString) (value : Json) :
    collect (members ++ [(key, value)]) = setMember key value (collect members) := by
  rw [collect, List.foldl_append]
  rfl

/-! ## What has been read is derived -/

/-- The elements or members in front of the next one, with their commas. -/
inductive Done : Frame → ByteString → Prop
  | openArray : Done (.array []) []
  | elements {elements text comma} (helements : Derives (.elements elements) text)
      (hcomma : Lexed .valueSeparator comma) :
      Done (.array elements) (text ++ comma)
  | openObject {key keyText separator} (hkey : Lexed (.valueString key) keyText)
      (hseparator : Lexed .nameSeparator separator) :
      Done (.object [] key) (keyText ++ separator)
  | members {members key text comma keyText separator}
      (hmembers : Derives (.members members) text)
      (hcomma : Lexed .valueSeparator comma)
      (hkey : Lexed (.valueString key) keyText)
      (hseparator : Lexed .nameSeparator separator) :
      Done (.object (collect members) key) (text ++ comma ++ (keyText ++ separator))

def opens : Frame → Token
  | .array _ => .beginArray
  | .object _ _ => .beginObject

/-- The text of the open structures. -/
inductive Opened : List Frame → ByteString → Prop
  | nil : Opened [] []
  | cons {frame frames before opening text} (hframes : Opened frames before)
      (hopening : Lexed (opens frame) opening) (hdone : Done frame text) :
      Opened (frame :: frames) (before ++ opening ++ text)

/-- The state of the loop behind `input` less what is left. -/
def Reached (input : ByteString) : Loop → Prop
  | .reading frames lastToken rest => ∃ before text,
      input = before ++ text ++ rest ∧ Opened frames before ∧ Lexed lastToken text
  | .evaluating frames value rest => ∃ before text,
      input = before ++ text ++ rest ∧ Opened frames before ∧
        Derives (.value value) text

section Reading

variable {whole : ByteString} {loop next : Loop} {frames : List Frame}
  {elements : List Json} {members : Members} {value : Json}
  {key text input after : ByteString} {lastToken : Token}

/-- An element behind those that are done. -/
theorem Done.element (hdone : Done (.array elements) text) {last : ByteString}
    (hvalue : Derives (.value value) last) :
    Derives (.elements (elements ++ [value])) (text ++ last) := by
  cases hdone with
  | openArray => exact .firstElement hvalue
  | elements helements hcomma => exact .nextElement helements hcomma hvalue

/-- A member behind those that are done. -/
theorem Done.member (hdone : Done (.object members key) text) {last : ByteString}
    (hvalue : Derives (.value value) last) :
    ∃ listed, setMember key value members = collect listed ∧
      Derives (.members listed) (text ++ last) := by
  cases hdone with
  | openObject hkey hseparator =>
      exact ⟨[(key, value)], rfl, .firstMember hkey hseparator hvalue⟩
  | @members listed _ text comma keyText separator hmembers hcomma hkey hseparator =>
      refine ⟨listed ++ [(key, value)], (collect_concat listed key value).symm, ?_⟩
      have hderives := Derives.nextMember hmembers hcomma hkey hseparator hvalue
      simpa only [List.append_assoc] using hderives

theorem Opened.exists_outer {frame : Frame} {before : ByteString}
    (hopened : Opened (frame :: frames) before) :
    ∃ outer opening text, before = outer ++ opening ++ text ∧
      Opened frames outer ∧ Lexed (opens frame) opening ∧ Done frame text := by
  cases hopened with
  | cons hframes hopening hdone => exact ⟨_, _, _, rfl, hframes, hopening, hdone⟩

/-- A turn reads on. -/
theorem Reached.turn (hreached : Reached whole loop) (hturn : Turn loop next) :
    Reached whole next := by
  cases hturn with
  | scalar hvalue =>
      obtain ⟨before, text, rfl, hframes, htext⟩ := hreached
      exact ⟨before, text, rfl, hframes, .scalar hvalue htext⟩
  | emptyObject hclose =>
      obtain ⟨before, opening, rfl, hframes, hopening⟩ := hreached
      obtain ⟨closing, rfl, hclosing⟩ := scan_eq_some_iff.1 hclose
      exact ⟨before, opening ++ closing, by simp only [List.append_assoc], hframes,
        .emptyObject hopening hclosing⟩
  | openObject hscanKey hscanSeparator hfirst =>
      obtain ⟨before, opening, rfl, hframes, hopening⟩ := hreached
      obtain ⟨keyText, rfl, hkey⟩ := scan_eq_some_iff.1 hscanKey
      obtain ⟨separator, rfl, hseparator⟩ := scan_eq_some_iff.1 hscanSeparator
      obtain ⟨text, rfl, htext⟩ := scan_eq_some_iff.1 hfirst
      exact ⟨before ++ opening ++ (keyText ++ separator), text,
        by simp only [List.append_assoc],
        .cons hframes hopening (.openObject hkey hseparator), htext⟩
  | emptyArray hclose =>
      obtain ⟨before, opening, rfl, hframes, hopening⟩ := hreached
      obtain ⟨closing, rfl, hclosing⟩ := scan_eq_some_iff.1 hclose
      exact ⟨before, opening ++ closing, by simp only [List.append_assoc], hframes,
        .emptyArray hopening hclosing⟩
  | openArray hne hfirst =>
      obtain ⟨before, opening, rfl, hframes, hopening⟩ := hreached
      obtain ⟨text, rfl, htext⟩ := scan_eq_some_iff.1 hfirst
      exact ⟨before ++ opening ++ [], text,
        by simp only [List.append_assoc, List.nil_append],
        .cons hframes hopening .openArray, htext⟩
  | nextElement hscanComma hfirst =>
      obtain ⟨_, last, rfl, hopened, hvalue⟩ := hreached
      obtain ⟨outer, opening, texts, rfl, hframes, hopening, hdone⟩ :=
        hopened.exists_outer
      obtain ⟨comma, rfl, hcomma⟩ := scan_eq_some_iff.1 hscanComma
      obtain ⟨text, rfl, htext⟩ := scan_eq_some_iff.1 hfirst
      exact ⟨outer ++ opening ++ (texts ++ last ++ comma), text,
        by simp only [List.append_assoc],
        .cons hframes hopening (.elements (hdone.element hvalue) hcomma), htext⟩
  | closeArray hclose =>
      obtain ⟨_, last, rfl, hopened, hvalue⟩ := hreached
      obtain ⟨outer, opening, texts, rfl, hframes, hopening, hdone⟩ :=
        hopened.exists_outer
      obtain ⟨closing, rfl, hclosing⟩ := scan_eq_some_iff.1 hclose
      exact ⟨outer, opening ++ (texts ++ last) ++ closing,
        by simp only [List.append_assoc], hframes,
        .array hopening (hdone.element hvalue) hclosing⟩
  | nextMember hscanComma hscanKey hscanSeparator hfirst =>
      obtain ⟨_, last, rfl, hopened, hvalue⟩ := hreached
      obtain ⟨outer, opening, texts, rfl, hframes, hopening, hdone⟩ :=
        hopened.exists_outer
      obtain ⟨comma, rfl, hcomma⟩ := scan_eq_some_iff.1 hscanComma
      obtain ⟨keyText, rfl, hkey⟩ := scan_eq_some_iff.1 hscanKey
      obtain ⟨separator, rfl, hseparator⟩ := scan_eq_some_iff.1 hscanSeparator
      obtain ⟨text, rfl, htext⟩ := scan_eq_some_iff.1 hfirst
      obtain ⟨listed, hset, hmembers⟩ := hdone.member hvalue
      rw [hset]
      exact ⟨outer ++ opening ++ (texts ++ last ++ comma ++ (keyText ++ separator)),
        text, by simp only [List.append_assoc],
        .cons hframes hopening (.members hmembers hcomma hkey hseparator), htext⟩
  | closeObject hclose =>
      obtain ⟨_, last, rfl, hopened, hvalue⟩ := hreached
      obtain ⟨outer, opening, texts, rfl, hframes, hopening, hdone⟩ :=
        hopened.exists_outer
      obtain ⟨closing, rfl, hclosing⟩ := scan_eq_some_iff.1 hclose
      obtain ⟨listed, hset, hmembers⟩ := hdone.member hvalue
      rw [hset]
      exact ⟨outer, opening ++ (texts ++ last) ++ closing,
        by simp only [List.append_assoc], hframes,
        .object hopening hmembers hclosing⟩

theorem reached_parseFrom (hreached : Reached whole loop)
    (hparse : parseFrom loop = some (value, after)) :
    Reached whole (.evaluating [] value after) := by
  fun_induction parseFrom loop with
  | case1 => cases hparse; exact hreached
  | case2 => cases hparse
  | case3 loop hloop next hturn ih =>
      exact ih (hreached.turn (turn_eq_some_iff.1 hturn)) hparse

end Reading

/-! ## What is derived is read -/

/-- The loop reads the text, whatever is open and whatever follows. -/
def Reads : Phrase → ByteString → Prop
  | .value value, text => ∀ frames after, ∃ lastToken rest,
      scan (text ++ after) = some (lastToken, rest) ∧ lastToken ≠ .endArray ∧
        parseFrom (.reading frames lastToken rest) =
          parseFrom (.evaluating frames value after)
  | .elements elements, text => ∃ front last, elements = front ++ [last] ∧
      ∀ frames after, ∃ lastToken rest,
        scan (text ++ after) = some (lastToken, rest) ∧ lastToken ≠ .endArray ∧
          parseFrom (.reading (.array [] :: frames) lastToken rest) =
            parseFrom (.evaluating (.array front :: frames) last after)
  | .members members, text => ∃ front key value,
      members = front ++ [(key, value)] ∧
        ∀ frames after, ∃ first separator start lastToken rest,
          scan (text ++ after) = some (.valueString first, separator) ∧
            scan separator = some (.nameSeparator, start) ∧
            scan start = some (lastToken, rest) ∧
            parseFrom (.reading (.object [] first :: frames) lastToken rest) =
              parseFrom
                (.evaluating (.object (collect front) key :: frames) value after)

section Deriving

variable {loop next : Loop} {phrase : Phrase} {token : Token}
  {text : ByteString}

theorem parseFrom_of_turn (hturn : Turn loop next) :
    parseFrom loop = parseFrom next := by
  have hsome := turn_eq_some_iff.2 hturn
  rw [parseFrom]
  · split
    · next hnone => cases hsome.symm.trans hnone
    · next hother =>
      cases hsome.symm.trans hother
      rfl
  · rintro value input rfl
    cases hturn

theorem Derives.reads (hderives : Derives phrase text) : Reads phrase text := by
  induction hderives with
  | @scalar token value text hvalue htext =>
      intro frames after
      refine ⟨token, after, htext.scan after, ?_, parseFrom_of_turn (.scalar hvalue)⟩
      rintro rfl
      cases hvalue
  | @emptyArray opening closing hopening hclosing =>
      intro frames after
      refine ⟨.beginArray, closing ++ after, ?_, nofun,
        parseFrom_of_turn (.emptyArray (hclosing.scan after))⟩
      rw [List.append_assoc, hopening.scan]
  | @array opening text closing elements hopening helements hclosing ih =>
      intro frames after
      obtain ⟨front, last, rfl, hreads⟩ := ih
      obtain ⟨lastToken, rest, hfirst, hne, hparse⟩ := hreads frames (closing ++ after)
      refine ⟨.beginArray, text ++ (closing ++ after), ?_, nofun, ?_⟩
      · rw [List.append_assoc, List.append_assoc, hopening.scan]
      · calc
          _ = _ := parseFrom_of_turn (.openArray hne hfirst)
          _ = _ := hparse
          _ = _ := parseFrom_of_turn (.closeArray (hclosing.scan after))
  | @emptyObject opening closing hopening hclosing =>
      intro frames after
      refine ⟨.beginObject, closing ++ after, ?_, nofun,
        parseFrom_of_turn (.emptyObject (hclosing.scan after))⟩
      rw [List.append_assoc, hopening.scan]
  | @object opening text closing members hopening hmembers hclosing ih =>
      intro frames after
      obtain ⟨front, key, value, rfl, hreads⟩ := ih
      obtain ⟨first, separator, start, lastToken, rest, hkey, hseparator, hfirst,
        hparse⟩ := hreads frames (closing ++ after)
      refine ⟨.beginObject, text ++ (closing ++ after), ?_, nofun, ?_⟩
      · rw [List.append_assoc, List.append_assoc, hopening.scan]
      · rw [collect_concat]
        calc
          _ = _ := parseFrom_of_turn (.openObject hkey hseparator hfirst)
          _ = _ := hparse
          _ = _ := parseFrom_of_turn (.closeObject (hclosing.scan after))
  | firstElement hvalue ih => exact ⟨[], _, rfl, fun frames after => ih _ after⟩
  | @nextElement elements value texts comma text helements hcomma hvalue ihs ih =>
      obtain ⟨front, last, rfl, hreads⟩ := ihs
      refine ⟨front ++ [last], value, rfl, fun frames after => ?_⟩
      obtain ⟨firstToken, behind, hscan, hne, hparse⟩ :=
        hreads frames (comma ++ (text ++ after))
      obtain ⟨lastToken, rest, hfirst, -, hlast⟩ :=
        ih (.array (front ++ [last]) :: frames) after
      refine ⟨firstToken, behind, ?_, hne, ?_⟩
      · rw [List.append_assoc, List.append_assoc, hscan]
      · calc
          _ = _ := hparse
          _ = _ := parseFrom_of_turn (.nextElement (hcomma.scan _) hfirst)
          _ = _ := hlast
  | @firstMember key value keyText separator text hkey hseparator hvalue ih =>
      refine ⟨[], key, value, rfl, fun frames after => ?_⟩
      obtain ⟨lastToken, rest, hfirst, -, hparse⟩ := ih (.object [] key :: frames) after
      refine ⟨key, separator ++ (text ++ after), text ++ after, lastToken, rest, ?_,
        hseparator.scan _, hfirst, hparse⟩
      rw [List.append_assoc, List.append_assoc, hkey.scan]
  | @nextMember members key value texts comma keyText separator text hmembers
      hcomma hkey hseparator hvalue ihs ih =>
      obtain ⟨front, old, last, rfl, hreads⟩ := ihs
      refine ⟨front ++ [(old, last)], key, value, rfl, fun frames after => ?_⟩
      obtain ⟨first, behind, start, firstToken, rest, hscanKey, hscanSeparator,
        hscan, hparse⟩ :=
          hreads frames (comma ++ (keyText ++ (separator ++ (text ++ after))))
      obtain ⟨lastToken, remaining, hfirst, -, hlast⟩ :=
        ih (.object (collect (front ++ [(old, last)])) key :: frames) after
      refine ⟨first, behind, start, firstToken, rest, ?_, hscanSeparator, hscan, ?_⟩
      · simp only [List.append_assoc] at hscanKey ⊢
        exact hscanKey
      · rw [collect_concat] at hlast ⊢
        calc
          _ = _ := hparse
          _ = _ := parseFrom_of_turn (.nextMember (hcomma.scan _) (hkey.scan _)
            (hseparator.scan _) hfirst)
          _ = _ := hlast

end Deriving

/-! ## The parser and the grammar -/

/-- The byte order mark that a text may start with. -/
def byteOrderMark : ByteString :=
  [0xEF, 0xBB, 0xBF]

/-- A text of the value, with a byte order mark or without. -/
def TextOf (value : Json) (text : ByteString) : Prop :=
  Derives (.value value) text ∨
    ∃ unmarked, text = byteOrderMark ++ unmarked ∧ Derives (.value value) unmarked

section Parsing

variable {input after text opening : ByteString} {value : Json} {phrase : Phrase}
  {token : Token}

/-- No value starts like a byte order mark. -/
theorem Derives.head_ne (hderives : Derives (.value value) text) :
    text ++ after ≠ 0xEF :: input := by
  intro heq
  obtain ⟨lastToken, rest, hscan, _⟩ := hderives.reads [] after
  rw [heq] at hscan
  cases hscan

theorem parse_of_skipBom {unmarked : ByteString}
    (hskip : skipBom input = some unmarked) :
    parse input = some (value, after) ↔
      ∃ text, unmarked = text ++ after ∧ Derives (.value value) text := by
  simp only [parse, hskip, Option.bind_eq_bind, Option.bind_some,
    Option.bind_eq_some_iff]
  constructor
  · rintro ⟨⟨lastToken, rest⟩, hscan, hparse⟩
    obtain ⟨text, rfl, htext⟩ := scan_eq_some_iff.1 hscan
    have hreached : Reached (text ++ rest) (.reading [] lastToken rest) :=
      ⟨[], text, rfl, .nil, htext⟩
    obtain ⟨_, text, hinput, hframes, hderives⟩ :=
      reached_parseFrom hreached hparse
    cases hframes
    exact ⟨text, hinput, hderives⟩
  · rintro ⟨text, rfl, hderives⟩
    obtain ⟨lastToken, rest, hscan, -, hparse⟩ := hderives.reads [] after
    exact ⟨(lastToken, rest), hscan, hparse.trans (by rw [parseFrom])⟩

theorem skipBom_mark (rest : ByteString) :
    skipBom (byteOrderMark ++ rest) = some rest := rfl

theorem skipBom_eq_some {unmarked : ByteString}
    (hskip : skipBom input = some unmarked) :
    input = unmarked ∨ input = byteOrderMark ++ unmarked := by
  cases input with
  | nil =>
      cases hskip
      exact .inl rfl
  | cons first rest =>
      rw [skipBom] at hskip
      split_ifs at hskip with hfirst hmark
      · subst hfirst
        obtain ⟨tail, rfl⟩ := List.isPrefixOf_iff_prefix.1 hmark
        cases hskip
        exact .inr rfl
      · cases hskip
        exact .inl rfl

theorem exists_textOf (hparse : parse input = some (value, after)) :
    ∃ text, input = text ++ after ∧ TextOf value text := by
  have hsome : (skipBom input).isSome := by
    rw [Option.isSome_iff_ne_none]
    intro hnone
    rw [parse, hnone] at hparse
    cases hparse
  obtain ⟨unmarked, hskip⟩ := Option.isSome_iff_exists.1 hsome
  obtain ⟨text, rfl, hderives⟩ := (parse_of_skipBom hskip).1 hparse
  rcases skipBom_eq_some hskip with rfl | rfl
  · exact ⟨text, rfl, .inl hderives⟩
  · exact ⟨byteOrderMark ++ text, (List.append_assoc ..).symm,
      .inr ⟨text, rfl, hderives⟩⟩

theorem parse_of_textOf (htext : TextOf value text) (after : ByteString) :
    parse (text ++ after) = some (value, after) := by
  rcases htext with hderives | ⟨unmarked, rfl, hderives⟩
  · refine (parse_of_skipBom ?_).2 ⟨text, rfl, hderives⟩
    cases hinput : text ++ after with
    | nil => rfl
    | cons first rest =>
        refine if_neg ?_
        rintro rfl
        exact hderives.head_ne hinput
  · rw [List.append_assoc]
    exact (parse_of_skipBom (skipBom_mark _)).2 ⟨unmarked, rfl, hderives⟩

/-- The parser reads the texts of the grammar, whatever follows them, and nothing
else. -/
theorem parse_eq_some_iff :
    parse input = some (value, after) ↔
      ∃ text, input = text ++ after ∧ TextOf value text := by
  constructor
  · exact exists_textOf
  · rintro ⟨text, rfl, htext⟩
    exact parse_of_textOf htext after

end Parsing

end TwitterLike.JsonParser
