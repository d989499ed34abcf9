import CrazyHarness.Lib.Html
import CrazyHarness.Lib.Words
import CrazyHarness.Taskpacks.ResearchSources

/-! # Evidence pages

`render_source_html` and `_extract_evidence` (`taskpacks/research_tools.py`).  The page keeps the texts as they
are, the reader joins the words of a text with single spaces, and `_open_source` compares what was read with the
texts of the source.

* `extractEvidence_eq_expected_iff`: exactly the sources whose texts have single spaces can be opened. -/

namespace CrazyHarness.Research

open Lib Html

/-! ### Writing -/

/-- The line of an item. -/
def itemHtml (item : ResearchEvidenceItem) : String :=
  "<li data-evidence-id=\"" ++ escape item.evidenceId ++ "\">" ++ escape item.text ++ "</li>"

/-- `render_source_html`. -/
def renderSourceHtml (source : ResearchSource) : String :=
  "<!doctype html><html><head><meta charset=\"utf-8\">" ++
  "<title>" ++ escape source.title ++ "</title></head><body>" ++
  "<main data-source-id=\"" ++ escape source.sourceId ++ "\">" ++
  "<h1>" ++ escape source.title ++ "</h1><p>" ++ escape source.summary ++ "</p>" ++
  "<ul>" ++ "\n".intercalate (source.evidence.map itemHtml) ++ "</ul></main></body></html>"

/-- The item of a list; `before` is the text before it. -/
def itemParts (before : String) (item : ResearchEvidenceItem) : List (String × Tag) :=
  [(before, .start "li" [("data-evidence-id", item.evidenceId)]), (item.text, .close "li")]

/-- The items of a list, each on a line. -/
def listParts : List ResearchEvidenceItem → List (String × Tag)
  | [] => []
  | item :: items => itemParts "" item ++ items.flatMap (itemParts "\n")

/-- The page before the list. -/
def headParts (source : ResearchSource) : List (String × Tag) :=
  [("", .decl "doctype html"), ("", .start "html" []), ("", .start "head" []),
   ("", .start "meta" [("charset", "utf-8")]), ("", .start "title" []), (source.title, .close "title"),
   ("", .close "head"), ("", .start "body" []), ("", .start "main" [("data-source-id", source.sourceId)]),
   ("", .start "h1" []), (source.title, .close "h1"), ("", .start "p" []), (source.summary, .close "p"),
   ("", .start "ul" [])]

/-- The page behind the list. -/
def tailParts : List (String × Tag) :=
  [("", .close "ul"), ("", .close "main"), ("", .close "body"), ("", .close "html")]

/-- The page of a source as tags and texts. -/
def sourcePage (source : ResearchSource) : List (String × Tag) :=
  headParts source ++ listParts source.evidence ++ tailParts

theorem writePage_append (page page' : List (String × Tag)) :
    writePage (page ++ page') = writePage page ++ writePage page' := List.flatMap_append

theorem writePage_nil : writePage [] = [] := rfl

theorem writePage_cons (text : String) (tag : Tag) (page : List (String × Tag)) :
    writePage ((text, tag) :: page) = escapeChars text.toList ++ (tag.write ++ writePage page) := by
  rw [writePage, List.flatMap_cons, List.append_assoc]
  rfl

/-- A tag with one attribute: what stands before and behind its value. -/
theorem write_start {opening name attr value : String}
    (h : opening.toList = '<' :: name.toList ++ ' ' :: attr.toList ++ ['=', '"']) :
    (Tag.start name [(attr, value)]).write = opening.toList ++ (escapeChars value.toList ++ "\">".toList) := by
  rw [h, show "\">".toList = ['"', '>'] by decide]
  simp [Tag.write, Tag.body, writeAttr]

theorem writePage_itemParts (before : String) (item : ResearchEvidenceItem) :
    writePage (itemParts before item) = escapeChars before.toList ++ (itemHtml item).toList := by
  have hopen : "<li data-evidence-id=\"".toList =
      '<' :: "li".toList ++ ' ' :: "data-evidence-id".toList ++ ['=', '"'] := by decide +kernel
  have hclose : "</li>".toList = (Tag.close "li").write := by decide +kernel
  unfold itemHtml
  simp only [itemParts, writePage_cons, writePage_nil, write_start hopen, String.toList_append,
    toList_escape, hclose, List.append_assoc, List.append_nil]

/-- The lines of the items. -/
theorem toList_items (items : List ResearchEvidenceItem) :
    ("\n".intercalate (items.map itemHtml)).toList = writePage (listParts items) := by
  have hnil : escapeChars "".toList = [] := rfl
  have hline : escapeChars "\n".toList = "\n".toList := by decide
  rw [String.toList_intercalate, List.map_map]
  induction items with
  | nil => rfl
  | cons item items ih =>
      simp only [listParts, writePage_append, writePage_itemParts, hnil, List.nil_append]
      cases items with
      | nil =>
          simp only [List.map_cons, List.map_nil, List.intercalate_singleton, List.flatMap_nil, writePage_nil,
            List.append_nil, Function.comp_apply]
      | cons second items =>
          simp only [listParts, writePage_append, writePage_itemParts, hnil, List.nil_append] at ih
          simp only [List.map_cons, List.intercalate_cons_cons, List.flatMap_cons, writePage_append,
            writePage_itemParts, hline, List.append_assoc, Function.comp_apply] at ih ⊢
          rw [ih]

theorem toList_renderSourceHtml (source : ResearchSource) :
    (renderSourceHtml source).toList = writePage (sourcePage source) := by
  have hdocument : "<!doctype html><html><head><meta charset=\"utf-8\">".toList =
      (Tag.decl "doctype html").write ++ ((Tag.start "html" []).write ++ ((Tag.start "head" []).write ++
        (Tag.start "meta" [("charset", "utf-8")]).write)) := by decide +kernel
  have htitle : "<title>".toList = (Tag.start "title" []).write := by decide +kernel
  have hbody : "</title></head><body>".toList =
      (Tag.close "title").write ++ ((Tag.close "head").write ++ (Tag.start "body" []).write) := by decide +kernel
  have hmain : "<main data-source-id=\"".toList =
      '<' :: "main".toList ++ ' ' :: "data-source-id".toList ++ ['=', '"'] := by decide +kernel
  have hheading : "<h1>".toList = (Tag.start "h1" []).write := by decide +kernel
  have hparagraph : "</h1><p>".toList = (Tag.close "h1").write ++ (Tag.start "p" []).write := by decide +kernel
  have hsummary : "</p>".toList = (Tag.close "p").write := by decide +kernel
  have hlist : "<ul>".toList = (Tag.start "ul" []).write := by decide +kernel
  have hend : "</ul></main></body></html>".toList = writePage tailParts := by decide +kernel
  have hempty : escapeChars "".toList = [] := rfl
  unfold renderSourceHtml
  simp only [sourcePage, headParts, writePage_append, writePage_cons, writePage_nil,
    write_start hmain, String.toList_append, toList_escape, toList_items, hdocument, htitle, hbody, hheading,
    hparagraph, hsummary, hlist, hend, hempty, List.nil_append, List.append_assoc]

/-! ### Reading -/

/-- `EvidenceParser`. -/
structure EvidenceParser where
  current : Option String := none
  parts : List String := []
  items : List (String × String) := []

/-- `items[key] = value`. -/
def setItem (items : List (String × String)) (key value : String) : List (String × String) :=
  if key ∈ items.map Prod.fst then items.map (fun item => if item.1 = key then (key, value) else item)
  else items ++ [(key, value)]

/-- `dict(attrs).get(name)`, if it is not empty. -/
def attributeOf (attrs : List (String × Option String)) (name : String) : Option String :=
  ((attrs.reverse.lookup name).join).filter (· ≠ "")

/-- `handle_starttag`, `handle_data` and `handle_endtag`. -/
def EvidenceParser.handle (p : EvidenceParser) : Html.Event → EvidenceParser
  | .starttag name attrs =>
      match attributeOf attrs "data-evidence-id" with
      | some evidenceId => if name = "li" then { p with current := some evidenceId, parts := [] } else p
      | none => p
  | .data text => if p.current.isSome then { p with parts := p.parts ++ [text] } else p
  | .endtag name =>
      match p.current with
      | some evidenceId =>
          if name = "li" then
            { current := none, parts := [], items := setItem p.items evidenceId (joinWords ("".intercalate p.parts)) }
          else p
      | none => p
  | .decl _ => p

/-- `_extract_evidence`. -/
def extractEvidence (unescape : String → String) (dom : String) : List (String × String) :=
  ((parse unescape (.text []) dom.toList).foldl EvidenceParser.handle {}).items

/-- What `_open_source` compares it with. -/
def expectedEvidence (source : ResearchSource) : List (String × String) :=
  source.evidence.map (fun item => (item.evidenceId, item.text))

/-- `observed == expected`, of dictionaries. -/
def SameItems (observed expected : List (String × String)) : Prop :=
  ∀ key, observed.lookup key = expected.lookup key

/-! ### What is read back -/

/-- What is reported of a part of a page. -/
def partEvents (part : String × Tag) : List Html.Event :=
  (if part.1 = "" then [] else [.data part.1]) ++ [part.2.event]

/-- A tag that starts no evidence. -/
def Quiet : Tag → Prop
  | .start _ attrs => ∀ attr ∈ attrs, attr.1 ≠ "data-evidence-id"
  | _ => True

instance : DecidablePred Quiet
  | .decl _ => inferInstanceAs (Decidable True)
  | .start _ attrs => inferInstanceAs (Decidable (∀ attr ∈ attrs, attr.1 ≠ "data-evidence-id"))
  | .close _ => inferInstanceAs (Decidable True)

theorem attributeOf_eq_none {attrs : List (String × String)} (h : ∀ attr ∈ attrs, attr.1 ≠ "data-evidence-id") :
    attributeOf (attrs.map (fun attr => (attr.1, some attr.2))) "data-evidence-id" = none := by
  have hlookup : ((attrs.map (fun attr => (attr.1, some attr.2))).reverse).lookup "data-evidence-id" = none := by
    rw [List.lookup_eq_none_iff]
    intro x hx
    obtain ⟨attr, hattr, rfl⟩ := List.mem_map.mp (List.mem_reverse.mp hx)
    exact bne_iff_ne.mpr (Ne.symm (h attr hattr))
  rw [attributeOf, hlookup]
  rfl

/-- Outside of an evidence nothing is kept. -/
theorem foldl_quiet {parts : List (String × Tag)} (h : ∀ part ∈ parts, Quiet part.2) {p : EvidenceParser}
    (hp : p.current = none) : (parts.flatMap partEvents).foldl EvidenceParser.handle p = p := by
  have hdata : ∀ text, p.handle (.data text) = p := by
    intro text
    rw [EvidenceParser.handle, hp]
    rfl
  induction parts with
  | nil => rfl
  | cons part parts ih =>
      have htag : p.handle part.2.event = p := by
        have hquiet := h part List.mem_cons_self
        obtain ⟨text, tag⟩ := part
        cases tag with
        | decl text => rfl
        | start name attrs => simp only [Tag.event, EvidenceParser.handle, attributeOf_eq_none hquiet]
        | close name => simp only [Tag.event, EvidenceParser.handle, hp]
      rw [List.flatMap_cons, List.foldl_append, partEvents, List.foldl_append]
      split_ifs
      · rw [List.foldl_nil, List.foldl_cons, List.foldl_nil, htag, ih (fun q hq => h q (List.mem_cons_of_mem _ hq))]
      · rw [List.foldl_cons, List.foldl_nil, List.foldl_cons, List.foldl_nil, hdata, htag,
          ih (fun q hq => h q (List.mem_cons_of_mem _ hq))]

theorem evidenceId_ne_empty (item : ResearchEvidenceItem) : item.evidenceId ≠ "" := by
  intro h
  have hid := item.identified
  rw [h] at hid
  exact absurd hid (by decide)

/-- An evidence is kept with its words. -/
theorem foldl_itemParts (before : String) (item : ResearchEvidenceItem) {p : EvidenceParser}
    (hp : p.current = none) :
    ((itemParts before item).flatMap partEvents).foldl EvidenceParser.handle p =
      { current := none, parts := [], items := setItem p.items item.evidenceId (joinWords item.text) } := by
  have hattr : attributeOf [("data-evidence-id", some item.evidenceId)] "data-evidence-id" =
      some item.evidenceId := by
    simp [attributeOf, evidenceId_ne_empty]
  have hdata : ∀ text, p.handle (.data text) = p := by
    intro text
    rw [EvidenceParser.handle, hp]
    rfl
  have htext : item.text ≠ "" := by
    intro h
    have hblank := item.not_blank
    rw [h] at hblank
    exact absurd hblank (by decide)
  have hstart : p.handle (Tag.event (.start "li" [("data-evidence-id", item.evidenceId)])) =
      { p with current := some item.evidenceId, parts := [] } := by
    simp only [Tag.event, List.map_cons, List.map_nil, EvidenceParser.handle, hattr, if_true]
  have hjoin : "".intercalate [item.text] = item.text := by
    rw [← String.toList_inj, String.toList_intercalate]
    simp
  simp only [itemParts, List.flatMap_cons, List.flatMap_nil, List.append_nil, partEvents, if_neg htext,
    List.foldl_append, List.foldl_cons, List.foldl_nil]
  have hbefore : List.foldl EvidenceParser.handle p (if before = "" then [] else [.data before]) = p := by
    split_ifs
    · rfl
    · exact hdata before
  rw [hbefore, hstart]
  simp [EvidenceParser.handle, Tag.event, hjoin]

/-- New keys are kept in the order in which they come. -/
theorem foldl_setItem (value : ResearchEvidenceItem → String) {items : List ResearchEvidenceItem}
    (hnodup : (items.map ResearchEvidenceItem.evidenceId).Nodup) {kept : List (String × String)}
    (hnew : ∀ item ∈ items, item.evidenceId ∉ kept.map Prod.fst) :
    items.foldl (fun kept item => setItem kept item.evidenceId (value item)) kept =
      kept ++ items.map (fun item => (item.evidenceId, value item)) := by
  induction items generalizing kept with
  | nil => rw [List.foldl_nil, List.map_nil, List.append_nil]
  | cons item items ih =>
      rw [List.map_cons, List.nodup_cons] at hnodup
      have hset : setItem kept item.evidenceId (value item) = kept ++ [(item.evidenceId, value item)] :=
        if_neg (hnew item List.mem_cons_self)
      rw [List.foldl_cons, hset, ih hnodup.2, List.append_assoc]
      · rfl
      · intro other hother hmem
        rw [List.map_append, List.mem_append] at hmem
        rcases hmem with hmem | hmem
        · exact hnew other (List.mem_cons_of_mem item hother) hmem
        · have heq : other.evidenceId = item.evidenceId := List.mem_singleton.mp hmem
          exact hnodup.1 (heq ▸ List.mem_map_of_mem hother)

theorem foldl_lines (items : List ResearchEvidenceItem) {p : EvidenceParser} (hp : p.current = none)
    (hparts : p.parts = []) :
    ((items.flatMap (itemParts "\n")).flatMap partEvents).foldl EvidenceParser.handle p =
      { p with items := items.foldl (fun kept item => setItem kept item.evidenceId (joinWords item.text)) p.items } := by
  induction items generalizing p with
  | nil => rfl
  | cons item items ih =>
      rw [List.flatMap_cons, List.flatMap_append, List.foldl_append, foldl_itemParts "\n" item hp, ih rfl rfl,
        List.foldl_cons]
      simp only [EvidenceParser.mk.injEq, and_true]
      exact ⟨hp.symm, hparts.symm⟩

/-- Before the list there is no evidence. -/
theorem headParts_spec (source : ResearchSource) : ∀ part ∈ headParts source, part.2.Clean ∧ Quiet part.2 := by
  have hmain : Tag.Clean (.start "main" [("data-source-id", source.sourceId)]) ∧
      Quiet (.start "main" [("data-source-id", source.sourceId)]) := by
    refine ⟨⟨by decide +kernel, ?_⟩, ?_⟩
    · intro attr hattr
      rw [List.mem_singleton.mp hattr]
      exact (by decide +kernel : CleanName "data-source-id")
    · intro attr hattr
      rw [List.mem_singleton.mp hattr]
      exact (by decide +kernel : ("data-source-id" : String) ≠ "data-evidence-id")
  simp only [headParts, List.forall_mem_cons, List.not_mem_nil, false_imp_iff, implies_true, and_true]
  refine ⟨?_, ?_, ?_, ?_, ?_, ?_, ?_, ?_, hmain, ?_, ?_, ?_, ?_, ?_⟩ <;> decide +kernel

/-- Behind the list there is none. -/
theorem tailParts_spec : ∀ part ∈ tailParts, part.2.Clean ∧ Quiet part.2 := by decide +kernel

theorem clean_itemParts {before : String} {item : ResearchEvidenceItem} :
    ∀ part ∈ itemParts before item, part.2.Clean := by
  intro part hpart
  simp only [itemParts, List.mem_cons, List.not_mem_nil, or_false] at hpart
  rcases hpart with rfl | rfl
  · refine ⟨by decide +kernel, ?_⟩
    intro attr hattr
    rw [List.mem_singleton.mp hattr]
    exact (by decide +kernel : CleanName "data-evidence-id")
  · exact (by decide +kernel : CleanName "li")

theorem clean_sourcePage (source : ResearchSource) : ∀ part ∈ sourcePage source, part.2.Clean := by
  intro part hpart
  rw [sourcePage, List.mem_append, List.mem_append] at hpart
  rcases hpart with (hpart | hpart) | hpart
  · exact (headParts_spec source part hpart).1
  · cases hitems : source.evidence with
    | nil =>
        rw [hitems] at hpart
        cases hpart
    | cons item items =>
        rw [hitems, listParts, List.mem_append, List.mem_flatMap] at hpart
        rcases hpart with hpart | ⟨other, -, hpart⟩
        · exact clean_itemParts part hpart
        · exact clean_itemParts part hpart
  · exact (tailParts_spec part hpart).1

/-- The evidence of a page is that of its source, each text as its words with single spaces. -/
theorem extractEvidence_render {unescape : String → String} (hunescape : ∀ text, unescape (escape text) = text)
    (source : ResearchSource) :
    extractEvidence unescape (renderSourceHtml source) =
      source.evidence.map (fun item => (item.evidenceId, joinWords item.text)) := by
  have hkept := @foldl_setItem (fun item => joinWords item.text) _ source.nodup [] nofun
  rw [extractEvidence, toList_renderSourceHtml, parse_write hunescape (clean_sourcePage source)]
  show (((sourcePage source).flatMap partEvents).foldl EvidenceParser.handle {}).items = _
  rw [sourcePage, List.flatMap_append, List.flatMap_append, List.foldl_append, List.foldl_append,
    foldl_quiet (fun part hpart => (headParts_spec source part hpart).2) rfl]
  rw [List.nil_append] at hkept
  cases hitems : source.evidence with
  | nil => exact absurd hitems source.evidence_ne_nil
  | cons item items =>
      rw [hitems, List.foldl_cons] at hkept
      rw [listParts, List.flatMap_append, List.foldl_append, foldl_itemParts "" item rfl, foldl_lines items rfl rfl,
        foldl_quiet (fun part hpart => (tailParts_spec part hpart).2) rfl]
      exact hkept

/-! ### Dictionaries -/

theorem lookup_map {items : List ResearchEvidenceItem} (hnodup : (items.map ResearchEvidenceItem.evidenceId).Nodup)
    (value : ResearchEvidenceItem → String) {item : ResearchEvidenceItem} (hitem : item ∈ items) :
    (items.map (fun item => (item.evidenceId, value item))).lookup item.evidenceId = some (value item) := by
  induction items with
  | nil => cases hitem
  | cons first items ih =>
      rw [List.map_cons, List.nodup_cons] at hnodup
      rw [List.map_cons, List.lookup_cons]
      rcases List.mem_cons.mp hitem with rfl | hitem
      · rw [beq_self_eq_true]
      · have hne : item.evidenceId ≠ first.evidenceId :=
          fun heq => hnodup.1 (heq ▸ List.mem_map_of_mem hitem)
        rw [beq_eq_false_iff_ne.mpr hne]
        exact ih hnodup.2 hitem

/-- The page of a source is read back as the source exactly when every evidence is single-spaced: it starts and
ends with a character that is no blank, and its blanks are single spaces. -/
theorem extractEvidence_eq_expected_iff (unescape : String → String)
    (hunescape : ∀ text, unescape (escape text) = text) (source : ResearchSource) :
    SameItems (extractEvidence unescape (renderSourceHtml source)) (expectedEvidence source) ↔
      ∀ item ∈ source.evidence, SingleSpaced false item.text.toList := by
  have htext : ∀ item : ResearchEvidenceItem, joinWords item.text = item.text ↔
      SingleSpaced false item.text.toList := by
    intro item
    refine joinWords_eq_iff ?_
    intro h
    have hblank := item.not_blank
    rw [h] at hblank
    exact absurd hblank (by decide)
  rw [extractEvidence_render hunescape]
  constructor
  · intro hsame item hitem
    have hkey := hsame item.evidenceId
    rw [expectedEvidence, lookup_map source.nodup (fun item => joinWords item.text) hitem,
      lookup_map source.nodup ResearchEvidenceItem.text hitem] at hkey
    exact (htext item).mp (Option.some.inj hkey)
  · intro hspaced key
    have heq : source.evidence.map (fun item => (item.evidenceId, joinWords item.text)) =
        expectedEvidence source := by
      refine List.map_congr_left ?_
      intro item hitem
      rw [(htext item).mpr (hspaced item hitem)]
    rw [heq]

/-- A source with one evidence. -/
def oneEvidence (text : String) (h : strip text ≠ "") : ResearchSource where
  sourceId := "drill"
  title := "Drill"
  summary := "One drill."
  tags := []
  evidence := [{ evidenceId := "result", text := text, identified := by decide +kernel, not_blank := h }]
  identified := by decide +kernel
  title_not_blank := by decide
  summary_not_blank := by decide
  evidence_ne_nil := List.cons_ne_nil _ _
  nodup := List.nodup_singleton _

theorem extractEvidence_eq_expected_iff_oneEvidence :
    SameItems (extractEvidence unescapeBasic (renderSourceHtml (oneEvidence "a <b>" (by decide))))
        (expectedEvidence (oneEvidence "a <b>" (by decide))) ↔
      ∀ item ∈ (oneEvidence "a <b>" (by decide)).evidence, SingleSpaced false item.text.toList :=
  extractEvidence_eq_expected_iff unescapeBasic unescapeBasic_escape (oneEvidence "a <b>" (by decide))

/-- An evidence with two spaces between its words is read back with one. -/
theorem doubleSpaced_not_read_back :
    ¬ SameItems (extractEvidence unescapeBasic (renderSourceHtml (oneEvidence "a  b" (by decide))))
      (expectedEvidence (oneEvidence "a  b" (by decide))) := by
  rw [extractEvidence_render unescapeBasic_escape]
  intro hsame
  exact absurd (hsame "result") (by decide)

end CrazyHarness.Research
