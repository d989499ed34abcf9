import CrazyHarness.Lib.Texts

/-! # Pages

A page of tags and of texts whose special characters are escaped, and a parser of such pages: `html.escape`
and `html.parser`, without comments, raw elements and tags that close themselves.  What stands for a character
reference is left to `unescape`.

* `parse_write`: a page is parsed to its tags and texts, if `unescape` undoes `escape`. -/

namespace Lib.Html

/-! ### Writing -/

/-- What is written for a character. -/
def escapeChar : Char → List Char
  | '&' => "&amp;".toList
  | '<' => "&lt;".toList
  | '>' => "&gt;".toList
  | '"' => "&quot;".toList
  | '\'' => "&#x27;".toList
  | c => [c]

def escapeChars (cs : List Char) : List Char := cs.flatMap escapeChar

/-- `html.escape(text)`. -/
def escape (text : String) : String := String.ofList (escapeChars text.toList)

@[simp] theorem toList_escape (text : String) : (escape text).toList = escapeChars text.toList :=
  String.toList_ofList

/-- An escaped text has none of the characters that end a text or a value. -/
theorem not_mem_escapeChars {c : Char} (hc : c ∈ ['<', '>', '"', '\'']) (cs : List Char) : c ∉ escapeChars cs := by
  intro h
  obtain ⟨a, -, ha⟩ := List.mem_flatMap.mp h
  rw [escapeChar.eq_def] at ha
  split at ha
  case h_6 hamp hlt hgt hquot hapos =>
    obtain rfl := List.mem_singleton.mp ha
    simp at hc
    tauto
  all_goals
    revert ha
    fin_cases hc <;> decide

/-- `html.unescape` of the references that `escape` writes. -/
def unescapeChars : List Char → List Char
  | '&' :: 'a' :: 'm' :: 'p' :: ';' :: cs => '&' :: unescapeChars cs
  | '&' :: 'l' :: 't' :: ';' :: cs => '<' :: unescapeChars cs
  | '&' :: 'g' :: 't' :: ';' :: cs => '>' :: unescapeChars cs
  | '&' :: 'q' :: 'u' :: 'o' :: 't' :: ';' :: cs => '"' :: unescapeChars cs
  | '&' :: '#' :: 'x' :: '2' :: '7' :: ';' :: cs => '\'' :: unescapeChars cs
  | c :: cs => c :: unescapeChars cs
  | [] => []

def unescapeBasic (text : String) : String := String.ofList (unescapeChars text.toList)

theorem unescapeChars_escapeChars (cs : List Char) : unescapeChars (escapeChars cs) = cs := by
  induction cs with
  | nil => rfl
  | cons c cs ih =>
      rw [escapeChars, List.flatMap_cons, ← escapeChars, escapeChar.eq_def]
      split
      case h_6 hamp hlt hgt hquot hapos =>
        rw [List.singleton_append, unescapeChars.eq_def]
        split
        case h_6 heq => rw [← (List.cons.inj heq).1, ← (List.cons.inj heq).2, ih]
        case h_7 heq => cases heq
        all_goals exact absurd (List.cons.inj (by assumption)).1 hamp
      all_goals exact congrArg (_ :: ·) ih

theorem unescapeBasic_escape (text : String) : unescapeBasic (escape text) = text := by
  rw [unescapeBasic, toList_escape, unescapeChars_escapeChars, String.ofList_toList]

/-- A tag. -/
inductive Tag where
  | decl (text : String)
  | start (name : String) (attrs : List (String × String))
  | close (name : String)
deriving DecidableEq

def writeAttr (attr : String × String) : List Char :=
  ' ' :: attr.1.toList ++ '=' :: '"' :: escapeChars attr.2.toList ++ ['"']

/-- What stands between the angle brackets. -/
def Tag.body : Tag → List Char
  | .decl text => '!' :: text.toList
  | .start name attrs => name.toList ++ attrs.flatMap writeAttr
  | .close name => '/' :: name.toList

def Tag.write (tag : Tag) : List Char := '<' :: tag.body ++ ['>']

/-- A page: tags, each with the text before it. -/
def writePage (page : List (String × Tag)) : List Char :=
  page.flatMap (fun part => escapeChars part.1.toList ++ part.2.write)

/-! ### Parsing -/

/-- What the parser reports; an attribute may come without a value. -/
inductive Event where
  | decl (text : String)
  | starttag (name : String) (attrs : List (String × Option String))
  | endtag (name : String)
  | data (text : String)
deriving DecidableEq

/-- Where in a tag the attributes have come to. -/
inductive AttrMode where
  | between
  | name (acc : List Char)
  | value (name : List Char)
  | quoted (name : List Char) (quote : Char) (acc : List Char)
  | bare (name acc : List Char)

/-- The attributes of these characters. -/
def parseAttrs : AttrMode → List Char → List (List Char × Option (List Char))
  | .between, [] => []
  | .name acc, [] => [(acc, none)]
  | .value name, [] => [(name, none)]
  | .quoted name _ acc, [] => [(name, some acc)]
  | .bare name acc, [] => [(name, some acc)]
  | .between, c :: cs => if isSpace c ∨ c = '/' then parseAttrs .between cs else parseAttrs (.name [c]) cs
  | .name acc, c :: cs =>
      if c = '=' then parseAttrs (.value acc) cs
      else if isSpace c then (acc, none) :: parseAttrs .between cs
      else parseAttrs (.name (acc ++ [c])) cs
  | .value name, c :: cs =>
      if c = '"' ∨ c = '\'' then parseAttrs (.quoted name c []) cs
      else if isSpace c then parseAttrs (.value name) cs
      else parseAttrs (.bare name [c]) cs
  | .quoted name quote acc, c :: cs =>
      if c = quote then (name, some acc) :: parseAttrs .between cs
      else parseAttrs (.quoted name quote (acc ++ [c])) cs
  | .bare name acc, c :: cs =>
      if isSpace c then (name, some acc) :: parseAttrs .between cs else parseAttrs (.bare name (acc ++ [c])) cs

/-- `name.lower()`, of a name in ASCII. -/
def lower (name : List Char) : String := String.ofList (name.map Char.toLower)

section parse

variable (unescape : String → String)

/-- The tag with this body. -/
def tagEvent : List Char → Event
  | '!' :: cs => .decl (String.ofList cs)
  | '/' :: cs => .endtag (lower (cs.takeWhile (fun c => !isSpace c)))
  | cs =>
      let name := cs.takeWhile (fun c => !isSpace c && c ≠ '/')
      .starttag (lower name) ((parseAttrs .between (cs.drop name.length)).map
        (fun attr => (lower attr.1, attr.2.map (fun value => unescape (String.ofList value)))))

/-- What is reported of a text that has come to its end. -/
def dataEvents (acc : List Char) : List Event :=
  if acc = [] then [] else [.data (unescape (String.ofList acc))]

/-- Whether the parser is in a text or in a tag, there perhaps between quotes. -/
inductive Mode where
  | text (acc : List Char)
  | tag (acc : List Char) (quote : Option Char)

/-- A tag starts with a letter, a slash or an exclamation mark. -/
def startsTag : List Char → Bool
  | [] => false
  | c :: _ => c.isAlpha || c = '/' || c = '!'

/-- `HTMLParser.feed`. -/
def parse : Mode → List Char → List Event
  | .text acc, [] => dataEvents unescape acc
  | .tag _ _, [] => []
  | .text acc, c :: cs =>
      if c = '<' ∧ startsTag cs then dataEvents unescape acc ++ parse (.tag [] none) cs
      else parse (.text (acc ++ [c])) cs
  | .tag acc none, c :: cs =>
      if c = '>' then tagEvent unescape acc :: parse (.text []) cs
      else parse (.tag (acc ++ [c]) (if c = '"' ∨ c = '\'' then some c else none)) cs
  | .tag acc (some quote), c :: cs => parse (.tag (acc ++ [c]) (if c = quote then none else some quote)) cs

/-! ### A page that is written is read back -/

/-- `[a-z0-9-]`. -/
def isNameChar (c : Char) : Bool := ('a' ≤ c && c ≤ 'z') || ('0' ≤ c && c ≤ '9') || c = '-'

/-- A name in small letters. -/
def CleanName (name : String) : Prop := startsTag name.toList ∧ ∀ c ∈ name.toList, isNameChar c

instance : DecidablePred CleanName := fun name =>
  decidable_of_iff (startsTag name.toList && name.toList.all isNameChar) (by
    rw [Bool.and_eq_true, List.all_eq_true, CleanName])

/-- A tag with such names. -/
def Tag.Clean : Tag → Prop
  | .decl text => ∀ c ∈ ['>', '"', '\''], c ∉ text.toList
  | .start name attrs => CleanName name ∧ ∀ attr ∈ attrs, CleanName attr.1
  | .close name => CleanName name

instance : DecidablePred Tag.Clean
  | .decl text => List.decidableBAll (fun c => c ∉ text.toList) ['>', '"', '\'']
  | .start name attrs => inferInstanceAs (Decidable (CleanName name ∧ ∀ attr ∈ attrs, CleanName attr.1))
  | .close name => inferInstanceAs (Decidable (CleanName name))

/-- What is reported of a tag. -/
def Tag.event : Tag → Event
  | .decl text => .decl text
  | .start name attrs => .starttag name (attrs.map (fun attr => (attr.1, some attr.2)))
  | .close name => .endtag name

/-- The characters that a name does not have. -/
theorem isNameChar_spec {c : Char} (h : isNameChar c) :
    isSpace c = false ∧ c.toLower = c ∧ ∀ d ∈ ['/', '>', '"', '\'', '=', '<', '!'], c ≠ d := by
  have hrange : (97 ≤ c.toNat ∧ c.toNat ≤ 122) ∨ (48 ≤ c.toNat ∧ c.toNat ≤ 57) ∨ c.toNat = 45 := by
    simp only [isNameChar, Bool.or_eq_true, Bool.and_eq_true, decide_eq_true_eq] at h
    rcases h with (⟨hlow, hhigh⟩ | ⟨hlow, hhigh⟩) | rfl
    · exact .inl ⟨hlow, hhigh⟩
    · exact .inr (.inl ⟨hlow, hhigh⟩)
    · exact .inr (.inr rfl)
  refine ⟨?_, ?_, ?_⟩
  · simp [isSpace]
    omega
  · refine dif_neg ?_
    rintro ⟨hlow, hhigh⟩
    have hlow' : 65 ≤ c.toNat := hlow
    have hhigh' : c.toNat ≤ 90 := hhigh
    omega
  · rintro d hd rfl
    revert hrange
    fin_cases hd <;> decide

theorem lower_eq {name : String} (h : ∀ c ∈ name.toList, isNameChar c) : lower name.toList = name := by
  have hsame : name.toList.map Char.toLower = name.toList.map id :=
    List.map_congr_left (fun c hc => (isNameChar_spec (h c hc)).2.1)
  rw [lower, hsame, List.map_id, String.ofList_toList]

variable {unescape} {acc rest : List Char}

theorem parse_text {cs : List Char} (h : '<' ∉ cs) :
    parse unescape (.text acc) (cs ++ rest) = parse unescape (.text (acc ++ cs)) rest := by
  induction cs generalizing acc with
  | nil => rw [List.nil_append, List.append_nil]
  | cons c cs ih =>
      obtain ⟨hc, hcs⟩ := not_or.mp (List.mem_cons.not.mp h)
      rw [List.cons_append, parse, if_neg (fun hopen => hc hopen.1.symm), ih hcs, List.append_assoc]
      rfl

theorem parse_plain {cs : List Char} (h : ∀ c ∈ ['>', '"', '\''], c ∉ cs) :
    parse unescape (.tag acc none) (cs ++ rest) = parse unescape (.tag (acc ++ cs) none) rest := by
  induction cs generalizing acc with
  | nil => rw [List.nil_append, List.append_nil]
  | cons c cs ih =>
      have hne : ∀ d ∈ ['>', '"', '\''], c ≠ d := fun d hd heq => h d hd (heq ▸ List.mem_cons_self)
      have hquote : ¬ (c = '"' ∨ c = '\'') := not_or.mpr ⟨hne _ (by decide), hne _ (by decide)⟩
      rw [List.cons_append, parse, if_neg (hne _ (by decide)), if_neg hquote,
        ih (fun d hd hmem => h d hd (List.mem_cons_of_mem c hmem)), List.append_assoc]
      rfl

theorem parse_quoted {cs : List Char} {quote : Char} (h : quote ∉ cs) :
    parse unescape (.tag acc (some quote)) (cs ++ quote :: rest) =
      parse unescape (.tag (acc ++ cs ++ [quote]) none) rest := by
  induction cs generalizing acc with
  | nil => rw [List.nil_append, parse, if_pos rfl, List.append_nil]
  | cons c cs ih =>
      obtain ⟨hc, hcs⟩ := not_or.mp (List.mem_cons.not.mp h)
      rw [List.cons_append, parse, if_neg (Ne.symm hc), ih hcs, List.append_assoc acc [c]]
      rfl

theorem not_mem_of_isNameChar {cs : List Char} (h : ∀ c ∈ cs, isNameChar c) {d : Char}
    (hd : d ∈ ['/', '>', '"', '\'', '=', '<', '!']) : d ∉ cs :=
  fun hmem => (isNameChar_spec (h d hmem)).2.2 d hd rfl

/-- An attribute is passed as part of its tag. -/
theorem parse_writeAttr {attr : String × String} (h : CleanName attr.1) :
    parse unescape (.tag acc none) (writeAttr attr ++ rest) =
      parse unescape (.tag (acc ++ writeAttr attr) none) rest := by
  have hstart : ∀ c ∈ ['>', '"', '\''], c ∉ ' ' :: attr.1.toList ++ ['='] := by
    intro c hc hmem
    have hc' : c ∈ ['/', '>', '"', '\'', '=', '<', '!'] := by fin_cases hc <;> decide
    simp only [List.cons_append, List.mem_cons, List.mem_append, List.not_mem_nil, or_false] at hmem
    rcases hmem with rfl | hmem | rfl
    · revert hc
      decide
    · exact not_mem_of_isNameChar h.2 hc' hmem
    · revert hc
      decide
  have hsplit : writeAttr attr ++ rest =
      (' ' :: attr.1.toList ++ ['=']) ++ '"' :: (escapeChars attr.2.toList ++ '"' :: rest) := by
    simp [writeAttr]
  rw [hsplit, parse_plain hstart, parse, if_neg (by decide), if_pos (.inl rfl),
    parse_quoted (not_mem_escapeChars (by decide) _)]
  simp [writeAttr]

theorem parse_writeAttrs {attrs : List (String × String)} (h : ∀ attr ∈ attrs, CleanName attr.1) :
    parse unescape (.tag acc none) (attrs.flatMap writeAttr ++ rest) =
      parse unescape (.tag (acc ++ attrs.flatMap writeAttr) none) rest := by
  induction attrs generalizing acc with
  | nil => rw [List.flatMap_nil, List.nil_append, List.append_nil]
  | cons attr attrs ih =>
      rw [List.flatMap_cons, List.append_assoc, parse_writeAttr (h attr List.mem_cons_self),
        ih (fun a ha => h a (List.mem_cons_of_mem attr ha)), List.append_assoc]

/-- A tag is passed as a whole. -/
theorem parse_body {tag : Tag} (h : tag.Clean) :
    parse unescape (.tag [] none) (tag.body ++ rest) = parse unescape (.tag tag.body none) rest := by
  have hname : ∀ {name : String}, CleanName name → ∀ c ∈ ['>', '"', '\''], c ∉ name.toList := by
    intro name hclean c hc
    refine not_mem_of_isNameChar hclean.2 ?_
    fin_cases hc <;> decide
  cases tag with
  | decl text =>
      refine parse_plain ?_
      intro c hc hmem
      rcases List.mem_cons.mp hmem with rfl | hmem
      · revert hc
        decide
      · exact h c hc hmem
  | start name attrs =>
      rw [Tag.body, List.append_assoc, parse_plain (hname h.1), parse_writeAttrs h.2, List.nil_append]
  | close name =>
      refine parse_plain ?_
      intro c hc hmem
      rcases List.mem_cons.mp hmem with rfl | hmem
      · revert hc
        decide
      · exact hname h c hc hmem

theorem parseAttrs_name {name acc : List Char} (h : ∀ c ∈ name, isNameChar c) (cs : List Char) :
    parseAttrs (.name acc) (name ++ '=' :: cs) = parseAttrs (.value (acc ++ name)) cs := by
  induction name generalizing acc with
  | nil => rw [List.nil_append, parseAttrs, if_pos rfl, List.append_nil]
  | cons c name ih =>
      obtain ⟨hspace, -, hne⟩ := isNameChar_spec (h c List.mem_cons_self)
      rw [List.cons_append, parseAttrs, if_neg (hne '=' (by decide)), if_neg (by rw [hspace]; decide),
        ih (fun d hd => h d (List.mem_cons_of_mem c hd)), List.append_assoc]
      rfl

theorem parseAttrs_quoted {name value acc : List Char} {quote : Char} (h : quote ∉ value) (cs : List Char) :
    parseAttrs (.quoted name quote acc) (value ++ quote :: cs) =
      (name, some (acc ++ value)) :: parseAttrs .between cs := by
  induction value generalizing acc with
  | nil => rw [List.nil_append, parseAttrs, if_pos rfl, List.append_nil]
  | cons c value ih =>
      obtain ⟨hc, hvalue⟩ := not_or.mp (List.mem_cons.not.mp h)
      rw [List.cons_append, parseAttrs, if_neg (Ne.symm hc), ih hvalue, List.append_assoc]
      rfl

/-- Attributes are read back, with the values as they are written. -/
theorem parseAttrs_write {attrs : List (String × String)} (h : ∀ attr ∈ attrs, CleanName attr.1) :
    parseAttrs .between (attrs.flatMap writeAttr) =
      attrs.map (fun attr => (attr.1.toList, some (escapeChars attr.2.toList))) := by
  induction attrs with
  | nil => rfl
  | cons attr attrs ih =>
      obtain ⟨hstart, hname⟩ := h attr List.mem_cons_self
      have hsplit : (attr :: attrs).flatMap writeAttr =
          ' ' :: (attr.1.toList ++ '=' :: '"' :: (escapeChars attr.2.toList ++
            '"' :: attrs.flatMap writeAttr)) := by
        simp [writeAttr]
      rw [hsplit, List.map_cons, ← ih (fun a ha => h a (List.mem_cons_of_mem attr ha)), parseAttrs,
        if_pos (.inl (by decide))]
      cases hchars : attr.1.toList with
      | nil =>
          rw [hchars] at hstart
          cases hstart
      | cons c name =>
          rw [hchars] at hname
          obtain ⟨hspace, -, hne⟩ := isNameChar_spec (hname c List.mem_cons_self)
          have hbetween : ¬ (isSpace c = true ∨ c = '/') := by
            rw [hspace]
            exact not_or.mpr ⟨by decide, hne '/' (by decide)⟩
          rw [List.cons_append, parseAttrs, if_neg hbetween,
            parseAttrs_name (fun d hd => hname d (List.mem_cons_of_mem c hd)), parseAttrs, if_pos (.inl rfl),
            parseAttrs_quoted (not_mem_escapeChars (by decide) _)]
          rfl

/-- The tag with the body that was written. -/
theorem tagEvent_body (hunescape : ∀ text, unescape (escape text) = text) {tag : Tag} (h : tag.Clean) :
    tagEvent unescape tag.body = tag.event := by
  cases tag with
  | decl text => simp [Tag.body, tagEvent, Tag.event]
  | close name =>
      have htake : name.toList.takeWhile (fun c => !isSpace c) = name.toList := by
        refine List.takeWhile_eq_self_iff.mpr ?_
        intro c hc
        rw [(isNameChar_spec (h.2 c hc)).1]
        rfl
      rw [Tag.body, tagEvent, htake, lower_eq h.2]
      rfl
  | start name attrs =>
      obtain ⟨⟨hstart, hname⟩, hattrs⟩ := h
      have htake : (name.toList ++ attrs.flatMap writeAttr).takeWhile (fun c => !isSpace c && c ≠ '/') =
          name.toList := by
        have hall : ∀ c ∈ name.toList, (!isSpace c && decide (c ≠ '/')) = true := by
          intro c hc
          obtain ⟨hspace, -, hne⟩ := isNameChar_spec (hname c hc)
          rw [hspace, decide_eq_true (hne '/' (by decide))]
          rfl
        rw [List.takeWhile_append_of_pos hall]
        cases attrs with
        | nil => simp
        | cons attr attrs => simp [writeAttr, isSpace]
      have hhead : ∀ d cs, name.toList ++ attrs.flatMap writeAttr = d :: cs → isNameChar d := by
        intro d cs heq
        cases hchars : name.toList with
        | nil =>
            rw [hchars] at hstart
            cases hstart
        | cons c chars =>
            rw [hchars, List.cons_append, List.cons.injEq] at heq
            rw [← heq.1]
            exact hname c (by rw [hchars]; exact List.mem_cons_self)
      rw [Tag.body, tagEvent.eq_def]
      split
      next cs heq => exact absurd (hhead _ _ heq) (by decide)
      next cs heq => exact absurd (hhead _ _ heq) (by decide)
      next =>
        simp only [htake, lower_eq hname, Tag.event, Event.starttag.injEq, true_and]
        rw [List.drop_left' rfl, parseAttrs_write hattrs, List.map_map]
        refine List.map_congr_left ?_
        intro attr hattr
        exact Prod.ext (lower_eq (hattrs attr hattr).2) (congrArg some (hunescape attr.2))

theorem startsTag_body {tag : Tag} (h : tag.Clean) (cs : List Char) : startsTag (tag.body ++ cs) := by
  have hname : ∀ {name : String}, CleanName name → ∀ cs, startsTag (name.toList ++ cs) := by
    rintro name ⟨hstart, -⟩ cs
    cases hchars : name.toList with
    | nil =>
        rw [hchars] at hstart
        cases hstart
    | cons c chars =>
        rw [hchars] at hstart
        exact hstart
  cases tag with
  | decl text => rfl
  | close name => rfl
  | start name attrs =>
      rw [Tag.body, List.append_assoc]
      exact hname h.1 _

/-- A page that is written is parsed to its tags, each after the text before it. -/
theorem parse_write (hunescape : ∀ text, unescape (escape text) = text) {page : List (String × Tag)}
    (h : ∀ part ∈ page, part.2.Clean) :
    parse unescape (.text []) (writePage page) =
      page.flatMap (fun part => (if part.1 = "" then [] else [.data part.1]) ++ [part.2.event]) := by
  induction page with
  | nil => rfl
  | cons part page ih =>
      obtain ⟨text, tag⟩ := part
      have hclean := h _ List.mem_cons_self
      have hsplit : writePage ((text, tag) :: page) =
          escapeChars text.toList ++ '<' :: (tag.body ++ '>' :: writePage page) := by
        simp [writePage, Tag.write]
      have hdata : dataEvents unescape (escapeChars text.toList) = if text = "" then [] else [.data text] := by
        rw [dataEvents]
        by_cases htext : text = ""
        · rw [htext]
          rfl
        · have hchars : escapeChars text.toList ≠ [] := by
            intro hnil
            have hback := hunescape text
            rw [escape, hnil, String.ofList_nil] at hback
            have hempty := hunescape ""
            rw [show escape "" = "" from rfl] at hempty
            exact htext (hback.symm.trans hempty)
          rw [if_neg htext, if_neg hchars]
          exact congrArg (fun t => [Event.data t]) (hunescape text)
      rw [hsplit, parse_text (not_mem_escapeChars (by decide) _), parse, if_pos ⟨rfl, startsTag_body hclean _⟩,
        parse_body hclean, parse, if_pos rfl, tagEvent_body hunescape hclean,
        ih (fun p hp => h p (List.mem_cons_of_mem _ hp)), List.nil_append, hdata, List.flatMap_cons,
        List.append_assoc]
      rfl

end parse

end Lib.Html
