import TwitterLike.Json.Parser

/-!
# Values that are written and read back

The values that the parser can return are those that the serializer writes and
the parser reads back.  A text cut short is no text.
-/

namespace TwitterLike.JsonRoundTrip

open TwitterLike.ByteBuffer
open TwitterLike.JsonDump
open TwitterLike.Utf8
open TwitterLike.JsonSerializer
open TwitterLike.JsonLexer
open TwitterLike.JsonParser

/-- The strings of the value are texts, and the members of its objects are in key
order. -/
inductive Canonical : Json → Prop
  | null : Canonical .null
  | boolean (value : Bool) : Canonical (.boolean value)
  | string {content : ByteString} (hcontent : IsUtf8 content) :
      Canonical (.string content)
  | array {elements : List Json} (helements : ∀ element ∈ elements, Canonical element) :
      Canonical (.array elements)
  | object {members : Members}
      (hsorted : members.Pairwise fun first second =>
        compare first.1 second.1 = .lt)
      (hkeys : ∀ member ∈ members, IsUtf8 member.1)
      (hvalues : ∀ member ∈ members, Canonical member.2) :
      Canonical (.object members)

/-! ## Strings -/

section Strings

variable {spelling added body content rest : ByteString} {value codepoint : ℕ}
  {token : Token} {text : ByteString}

theorem isUtf8_append (hleft : IsUtf8 added) (hright : IsUtf8 content) :
    IsUtf8 (added ++ content) := by
  obtain ⟨left, rfl⟩ := hleft
  obtain ⟨right, rfl⟩ := hright
  exact ⟨left ++ right, by rw [List.flatMap_append]⟩

theorem isUtf8_of_sequence (hbytes : Sequence added) : IsUtf8 added := by
  obtain ⟨character, rfl⟩ := sequence_iff.1 hbytes
  exact ⟨[character], by simp⟩

theorem shortEscape_lt {name : ℕ} {byte : Byte}
    (hname : shortEscape name = some byte) : byte.toNat ≤ 0x7F := by
  simp only [shortEscape] at hname
  split at hname <;> cases hname <;> decide

theorem Spells.isUtf8 (hspells : Spells spelling added) : IsUtf8 added := by
  refine isUtf8_of_sequence ?_
  cases hspells with
  | plain hbytes _ => exact hbytes
  | short hname => exact .one (shortEscape_lt hname)
  | unicode hdigits hvalue => exact sequence_encode hvalue
  | surrogates _ _ hhigh hlow =>
      refine sequence_encode ?_
      rw [IsScalar]
      omega

theorem Body.isUtf8 (hbody : Body body content) : IsUtf8 content := by
  induction hbody with
  | nil => exact ⟨[], rfl⟩
  | cons hspells _ ih => exact isUtf8_append (Spells.isUtf8 hspells) ih

theorem isUtf8_of_lexed (hlexed : Lexed (.valueString content) text) :
    IsUtf8 content := by
  obtain ⟨_, _, _, _, hlexeme⟩ := hlexed
  cases hlexeme with
  | valueString hbody => exact Body.isUtf8 hbody

theorem hexValue_hexDigit : ∀ digit < 16, hexValue (hexDigit digit) = some digit := by
  decide +kernel

/-- The escape of a control character. -/
theorem spells_unicodeEscape (hvalue : value ≤ 0x1F) :
    Spells (unicodeEscape value) (encode value) := by
  have hdigits : Hex4 [hexDigit (value / 4096 % 16), hexDigit (value / 256 % 16),
      hexDigit (value / 16 % 16), hexDigit (value % 16)]
      (((value / 4096 % 16 * 16 + value / 256 % 16) * 16 + value / 16 % 16) * 16 +
        value % 16) :=
    .intro (hexValue_hexDigit _ (by omega)) (hexValue_hexDigit _ (by omega))
      (hexValue_hexDigit _ (by omega)) (hexValue_hexDigit _ (by omega))
  have hsum : ((value / 4096 % 16 * 16 + value / 256 % 16) * 16 +
      value / 16 % 16) * 16 + value % 16 = value := by omega
  rw [hsum] at hdigits
  exact .unicode hdigits (by rw [IsScalar]; omega)

/-- What is written for a character is one of its spellings. -/
theorem spells_escaped (hvalue : IsScalar value) :
    Spells (escaped value) (encode value) := by
  rw [escaped]
  split
  · next hone =>
    have hencode : encode value = [.ofNat value] := if_pos hone
    simp only [escape]
    split
    case h_8 hquote hsolidus =>
      split
      · next hcontrol => exact spells_unicodeEscape hcontrol
      · have hbyte : (UInt8.ofNat value).toNat = value := toNat_ofNat (by omega)
        rw [hencode]
        refine .plain (.one (hbyte.trans_le hone)) ?_
        rw [hbyte]
        exact ⟨by omega, hquote, hsolidus⟩
    all_goals exact .short rfl
  · next hlarge =>
    have hbytes := sequence_encode hvalue
    cases hencode : encode value with
    | nil =>
        rw [hencode] at hbytes
        cases hbytes
    | cons first bytes =>
        rw [hencode] at hbytes
        refine .plain hbytes ?_
        rw [encode, if_neg hlarge] at hencode
        rw [IsScalar] at hvalue
        split_ifs at hencode <;> obtain ⟨rfl, _⟩ := List.cons.inj hencode <;>
          rw [toNat_ofNat (by omega)] <;> omega

theorem body_text (text : List Char) :
    Body (text.flatMap fun character => escaped character.toNat)
      (text.flatMap String.utf8EncodeChar) := by
  induction text with
  | nil => exact .nil
  | cons character text ih =>
      rw [List.flatMap_cons, List.flatMap_cons, utf8EncodeChar_eq_encode]
      exact .cons (spells_escaped (isScalar_toNat character)) ih

/-- A text is written as one of the texts of its token. -/
theorem exists_dumpString (hcontent : IsUtf8 content) :
    ∃ written, dumpString content = some written ∧
      Lexed (.valueString content) written := by
  obtain ⟨text, rfl⟩ := hcontent
  refine ⟨_, congrArg (Option.map _) (dumpEscapedFrom_text text),
    [], _, rfl, nofun, .valueString (body_text text)⟩

end Strings

/-! ## Values -/

section Values

variable {value : Json} {elements : List Json} {members listed : Members}
  {comma key text texts : ByteString} {phrase : Phrase}

/-- Elements in front of others. -/
theorem derives_elements_cons (hvalue : Derives (.value value) text)
    (hcomma : Lexed .valueSeparator comma)
    (helements : Derives (.elements elements) texts) :
    Derives (.elements (value :: elements)) (text ++ comma ++ texts) := by
  generalize hphrase : Phrase.elements elements = phrase at helements
  induction helements generalizing elements with
  | firstElement hlast =>
      cases hphrase
      exact .nextElement (.firstElement hvalue) hcomma hlast
  | @nextElement front last texts between lastText hfront hbetween hlast ih =>
      cases hphrase
      have hall := Derives.nextElement (ih rfl) hbetween hlast
      simpa only [List.append_assoc, List.cons_append] using hall
  | _ => cases hphrase

theorem derives_members_cons {separator keyText : ByteString}
    (hkey : Lexed (.valueString key) keyText)
    (hseparator : Lexed .nameSeparator separator)
    (hvalue : Derives (.value value) text) (hcomma : Lexed .valueSeparator comma)
    (hmembers : Derives (.members members) texts) :
    Derives (.members ((key, value) :: members))
      (keyText ++ separator ++ text ++ comma ++ texts) := by
  generalize hphrase : Phrase.members members = phrase at hmembers
  induction hmembers generalizing members with
  | firstMember hlastKey hlastSeparator hlast =>
      cases hphrase
      exact .nextMember (.firstMember hkey hseparator hvalue) hcomma hlastKey
        hlastSeparator hlast
  | nextMember hfront hbetween hlastKey hlastSeparator hlast ih =>
      cases hphrase
      have hall := Derives.nextMember (ih rfl) hbetween hlastKey hlastSeparator hlast
      simpa only [List.append_assoc, List.cons_append] using hall
  | _ => cases hphrase

theorem lexed_of_lexeme {token : Token} (hlexeme : Lexeme token text) :
    Lexed token text :=
  ⟨[], text, rfl, nofun, hlexeme⟩

/-- The value is written as one of its texts. -/
def Written (value : Json) : Prop :=
  ∃ text, dump value = some text ∧ Derives (.value value) text

theorem exists_dumpElements (hne : elements ≠ [])
    (hwritten : ∀ element ∈ elements, Written element) :
    ∃ texts, dumpElements elements = some texts ∧
      Derives (.elements elements) texts := by
  induction elements with
  | nil => exact absurd rfl hne
  | cons element rest ih =>
      obtain ⟨⟨text, hdump, hderives⟩, hrest⟩ := List.forall_mem_cons.1 hwritten
      cases rest with
      | nil =>
          refine ⟨text ++ [], ?_, ?_⟩
          · rw [dumpElements, hdump]
            rfl
          · rw [List.append_nil]
            exact .firstElement hderives
      | cons next rest =>
          obtain ⟨texts, hdumps, hall⟩ := ih (List.cons_ne_nil _ _) hrest
          refine ⟨text ++ [0x2C] ++ texts, ?_,
            derives_elements_cons hderives (lexed_of_lexeme .valueSeparator) hall⟩
          rw [dumpElements, hdump, Option.bind_eq_bind, Option.bind_some, hdumps]
          simp

theorem exists_dumpMembers (hne : members ≠ [])
    (hkeys : ∀ member ∈ members, IsUtf8 member.1)
    (hwritten : ∀ member ∈ members, Written member.2) :
    ∃ texts, dumpMembers members = some texts ∧
      Derives (.members members) texts := by
  induction members with
  | nil => exact absurd rfl hne
  | cons member rest ih =>
      obtain ⟨key, value⟩ := member
      obtain ⟨hkey, hkeys⟩ := List.forall_mem_cons.1 hkeys
      obtain ⟨⟨text, hdump, hderives⟩, hrest⟩ := List.forall_mem_cons.1 hwritten
      obtain ⟨keyText, hdumpKey, hlexed⟩ := exists_dumpString hkey
      have hseparator := lexed_of_lexeme .nameSeparator
      cases rest with
      | nil =>
          refine ⟨keyText ++ [0x3A] ++ text, ?_,
            .firstMember hlexed hseparator hderives⟩
          rw [dumpMembers, hdumpKey, hdump]
          simp [dumpMembers]
      | cons next rest =>
          obtain ⟨texts, hdumps, hall⟩ := ih (List.cons_ne_nil _ _) hkeys hrest
          refine ⟨keyText ++ [0x3A] ++ text ++ [0x2C] ++ texts, ?_,
            derives_members_cons hlexed hseparator hderives
              (lexed_of_lexeme .valueSeparator) hall⟩
          rw [dumpMembers, hdumpKey, hdump, hdumps]
          simp

/-! ## Key order -/

/-- A key behind all others is appended. -/
theorem setMember_of_last (hlast : ∀ member ∈ members, compare member.1 key = .lt) :
    setMember key value members = members ++ [(key, value)] := by
  induction members with
  | nil => rfl
  | cons member members ih =>
      obtain ⟨hfirst, hrest⟩ := List.forall_mem_cons.1 hlast
      have hgt : compare key member.1 = .gt := Std.OrientedCmp.gt_of_lt hfirst
      rw [setMember, hgt]
      exact congrArg (member :: ·) (ih hrest)

/-- Members in key order are collected as they are. -/
theorem collect_of_sorted (hsorted : members.Pairwise fun first second =>
    compare first.1 second.1 = .lt) : collect members = members := by
  induction members using List.reverseRecOn with
  | nil => rfl
  | append_singleton front member ih =>
      rw [List.pairwise_append] at hsorted
      obtain ⟨hfront, -, hlast⟩ := hsorted
      rw [collect_concat, ih hfront, setMember_of_last fun other hother =>
        hlast other hother member (List.mem_singleton_self member)]

theorem mem_setMember {member : ByteString × Json}
    (hmem : member ∈ setMember key value members) :
    member = (key, value) ∨ member ∈ members := by
  induction members with
  | nil => exact .inl (List.mem_singleton.1 hmem)
  | cons other members ih =>
      rw [setMember] at hmem
      split at hmem
      · exact List.mem_cons.1 hmem
      · rcases List.mem_cons.1 hmem with heq | hmem
        · exact .inl heq
        · exact .inr (List.mem_cons_of_mem _ hmem)
      · rcases List.mem_cons.1 hmem with rfl | hmem
        · exact .inr List.mem_cons_self
        · exact (ih hmem).imp_right (List.mem_cons_of_mem _)

theorem sorted_setMember (hsorted : members.Pairwise fun first second =>
    compare first.1 second.1 = .lt) :
    (setMember key value members).Pairwise fun first second =>
      compare first.1 second.1 = .lt := by
  induction members with
  | nil => exact List.pairwise_singleton ..
  | cons other members ih =>
      obtain ⟨hfirst, hrest⟩ := List.pairwise_cons.1 hsorted
      rw [setMember]
      split
      · next hlt =>
        refine List.pairwise_cons.2 ⟨fun member hmem => ?_, hsorted⟩
        rcases List.mem_cons.1 hmem with rfl | hmem
        · exact hlt
        · exact Std.TransCmp.lt_trans hlt (hfirst member hmem)
      · next heq =>
        rw [Std.LawfulEqCmp.compare_eq_iff_eq] at heq
        subst heq
        exact List.pairwise_cons.2 ⟨hfirst, hrest⟩
      · next hgt =>
        refine List.pairwise_cons.2 ⟨fun member hmem => ?_, ih hrest⟩
        rcases mem_setMember hmem with rfl | hmem
        · exact Std.OrientedCmp.lt_of_gt hgt
        · exact hfirst member hmem

theorem sorted_collect (members : Members) :
    (collect members).Pairwise fun first second =>
      compare first.1 second.1 = .lt := by
  induction members using List.reverseRecOn with
  | nil => exact .nil
  | append_singleton front member ih =>
      rw [collect_concat]
      exact sorted_setMember ih

theorem mem_collect {member : ByteString × Json} (hmem : member ∈ collect members) :
    member ∈ members := by
  induction members using List.reverseRecOn with
  | nil => exact hmem
  | append_singleton front last ih =>
      rw [collect_concat] at hmem
      rw [List.mem_append, List.mem_singleton]
      exact (mem_setMember hmem).symm.imp_left ih

end Values

/-! ## Writing and reading -/

/-- What the parser has put into the phrase is canonical. -/
def CanonicalPhrase : Phrase → Prop
  | .value value => Canonical value
  | .elements elements => ∀ element ∈ elements, Canonical element
  | .members members => ∀ member ∈ members, IsUtf8 member.1 ∧ Canonical member.2

section Writing

variable {value : Json} {phrase : Phrase} {text input after front back : ByteString}
  {members : Members} {token : Token}

theorem canonical_of_scalar (hvalue : scalar token = some value)
    (htext : Lexed token text) : Canonical value := by
  cases token <;> cases hvalue
  · exact .boolean true
  · exact .boolean false
  · exact .null
  · exact .string (isUtf8_of_lexed htext)

theorem canonical_collect
    (hmembers : ∀ member ∈ members, IsUtf8 member.1 ∧ Canonical member.2) :
    Canonical (.object (collect members)) :=
  .object (sorted_collect members)
    (fun member hmem => (hmembers member (mem_collect hmem)).1)
    (fun member hmem => (hmembers member (mem_collect hmem)).2)

theorem Derives.canonical (hderives : Derives phrase text) :
    CanonicalPhrase phrase := by
  induction hderives with
  | scalar hvalue htext => exact canonical_of_scalar hvalue htext
  | emptyArray => exact .array nofun
  | array _ _ _ ih => exact .array ih
  | emptyObject => exact .object .nil nofun nofun
  | object _ _ _ ih => exact canonical_collect ih
  | firstElement _ ih => exact List.forall_mem_singleton.2 ih
  | nextElement _ _ _ ihs ih =>
      exact List.forall_mem_append.2 ⟨ihs, List.forall_mem_singleton.2 ih⟩
  | firstMember hkey _ _ ih =>
      exact List.forall_mem_singleton.2 ⟨isUtf8_of_lexed hkey, ih⟩
  | nextMember _ _ hkey _ _ ihs ih =>
      exact List.forall_mem_append.2
        ⟨ihs, List.forall_mem_singleton.2 ⟨isUtf8_of_lexed hkey, ih⟩⟩

theorem Canonical.written (hcanonical : Canonical value) : Written value := by
  induction hcanonical with
  | null => exact ⟨_, rfl, .scalar rfl (lexed_of_lexeme .literalNull)⟩
  | boolean value =>
      cases value with
      | false => exact ⟨_, rfl, .scalar rfl (lexed_of_lexeme .literalFalse)⟩
      | true => exact ⟨_, rfl, .scalar rfl (lexed_of_lexeme .literalTrue)⟩
  | string hcontent =>
      obtain ⟨written, hdump, hlexed⟩ := exists_dumpString hcontent
      exact ⟨written, hdump, .scalar rfl hlexed⟩
  | @array elements _ ih =>
      have hopening := lexed_of_lexeme .beginArray
      have hclosing := lexed_of_lexeme .endArray
      by_cases hempty : elements = []
      · subst hempty
        exact ⟨_, rfl, .emptyArray hopening hclosing⟩
      · obtain ⟨texts, hdump, hderives⟩ := exists_dumpElements hempty ih
        refine ⟨[0x5B] ++ texts ++ [0x5D], ?_, .array hopening hderives hclosing⟩
        rw [dump, hdump]
        rfl
  | @object members hsorted hkeys _ ih =>
      have hopening := lexed_of_lexeme .beginObject
      have hclosing := lexed_of_lexeme .endObject
      by_cases hempty : members = []
      · subst hempty
        exact ⟨_, rfl, .emptyObject hopening hclosing⟩
      · obtain ⟨texts, hdump, hderives⟩ := exists_dumpMembers hempty hkeys ih
        have hobject := Derives.object hopening hderives hclosing
        rw [collect_of_sorted hsorted] at hobject
        refine ⟨[0x7B] ++ texts ++ [0x7D], ?_, hobject⟩
        rw [dump, hdump]
        rfl

theorem parse_of_derives (hderives : Derives (.value value) text)
    (after : ByteString) : parse (text ++ after) = some (value, after) :=
  parse_of_textOf (.inl hderives) after

theorem canonical_of_parse (hparse : parse input = some (value, after)) :
    Canonical value := by
  obtain ⟨_, _, hderives | ⟨_, _, hderives⟩⟩ := exists_textOf hparse <;>
    exact Derives.canonical hderives

/-- Reading does not look behind the value. -/
theorem parse_append (hparse : parse input = some (value, after))
    (behind : ByteString) : parse (input ++ behind) = some (value, after ++ behind) := by
  obtain ⟨text, rfl, htext⟩ := exists_textOf hparse
  rw [List.append_assoc]
  exact parse_of_textOf htext _

theorem Canonical.dumped (hcanonical : Canonical value) :
    ∃ text, dump value = some text ∧
      ∀ after, parse (text ++ after) = some (value, after) := by
  obtain ⟨text, hdump, hderives⟩ := hcanonical.written
  exact ⟨text, hdump, parse_of_derives hderives⟩

/-- The values that some input is read as are the values that are written and
read back, whatever follows them, and these are the ones whose strings are texts
and whose members have distinct names, in order. -/
theorem parsed_iff_dumped_and_parsed (value : Json) :
    ((∃ input after, parse input = some (value, after)) ↔
      ∃ text, dump value = some text ∧
        ∀ after, parse (text ++ after) = some (value, after)) ∧
    ((∃ input after, parse input = some (value, after)) ↔ Canonical value) := by
  have hback (hdumped : ∃ text, dump value = some text ∧
      ∀ after, parse (text ++ after) = some (value, after)) :
      ∃ input after, parse input = some (value, after) := by
    obtain ⟨text, -, hparse⟩ := hdumped
    exact ⟨text ++ [], [], hparse []⟩
  constructor
  · refine ⟨?_, hback⟩
    rintro ⟨input, after, hparse⟩
    exact (canonical_of_parse hparse).dumped
  · refine ⟨?_, fun hcanonical => hback hcanonical.dumped⟩
    rintro ⟨input, after, hparse⟩
    exact canonical_of_parse hparse

/-- What is cut off the end of a text is missed. -/
theorem parse_of_cut (hparse : parse (front ++ back) = some (value, []))
    (hback : back ≠ []) : parse front = none := by
  rw [Option.eq_none_iff_forall_ne_some]
  rintro ⟨other, after⟩ hfront
  have hrest : after ++ back = [] := (Prod.mk.inj (Option.some.inj
    ((parse_append hfront back).symm.trans hparse))).2
  exact hback (List.append_eq_nil_iff.1 hrest).2

end Writing

end TwitterLike.JsonRoundTrip
