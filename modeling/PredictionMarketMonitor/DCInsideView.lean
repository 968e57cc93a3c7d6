import PredictionMarketMonitor.DCInsideDocument

set_option autoImplicit false

/-!
# Author-free parsing of a DCInside view page

`_ViewParser` over the events of the HTML parser. What the parser keeps depends
only on what lies inside the captured elements, and on one title attribute.
-/
namespace PredictionMarketMonitor.DCInsideView

open CanonicalJson PythonText DCInsideDocument

abbrev Attrs := List (String × Option Text)

/-- What `HTMLParser` delivers. -/
inductive Event
  | starttag (tag : String) (attrs : Attrs)
  | endtag (tag : String)
  | data (text : Text)
deriving DecidableEq

structure ViewParser where
  bodyDepth : ℕ := 0
  ignoredDepth : ℕ := 0
  inTitle : Bool := false
  inScore : Bool := false
  inComments : Bool := false
  titleParts : List Text := []
  bodyParts : List Text := []
  scoreParts : List Text := []
  commentParts : List Text := []
  publishedRaw : Option Text := none
deriving DecidableEq

def bodyBlockTags : List String := ["br", "div", "li", "p"]

/-- `_attribute` -/
def attributeValue (attrs : Attrs) (name : String) : Option Text :=
  (attrs.find? (·.1 = name)).bind Prod.snd

def classes (attrs : Attrs) : List Text := split ((attributeValue attrs "class").getD [])

namespace ViewParser

def handleStarttag (p : ViewParser) (tag : String) (attrs : Attrs) : ViewParser :=
  if 0 < p.bodyDepth then
    let p := if tag ∈ ["script", "style"] then { p with ignoredDepth := p.ignoredDepth + 1 } else p
    let p := if tag = "div" then { p with bodyDepth := p.bodyDepth + 1 } else p
    if tag ∈ bodyBlockTags ∧ p.ignoredDepth = 0 then { p with bodyParts := p.bodyParts ++ [['\n']] } else p
  else
    let found := classes attrs
    let p := if tag = "div" ∧ "write_div".toList ∈ found then { p with bodyDepth := 1 } else p
    let p := if tag = "span" ∧ "title_subject".toList ∈ found then { p with inTitle := true } else p
    let p := if tag = "span" ∧ "gall_reply_num".toList ∈ found then { p with inScore := true } else p
    let p := if tag = "span" ∧ "gall_comment".toList ∈ found then { p with inComments := true } else p
    if tag = "span" ∧ "gall_date".toList ∈ found ∧ p.publishedRaw = none then
      { p with publishedRaw := attributeValue attrs "title" }
    else p

def handleEndtag (p : ViewParser) (tag : String) : ViewParser :=
  if 0 < p.bodyDepth then
    let p :=
      if tag ∈ ["script", "style"] ∧ 0 < p.ignoredDepth then { p with ignoredDepth := p.ignoredDepth - 1 }
      else p
    let p :=
      if tag ∈ bodyBlockTags ∧ p.ignoredDepth = 0 then { p with bodyParts := p.bodyParts ++ [['\n']] } else p
    if tag = "div" then { p with bodyDepth := p.bodyDepth - 1 } else p
  else if tag = "span" then { p with inTitle := false, inScore := false, inComments := false }
  else p

def handleData (p : ViewParser) (text : Text) : ViewParser :=
  if 0 < p.bodyDepth then
    if p.ignoredDepth = 0 then { p with bodyParts := p.bodyParts ++ [text] } else p
  else
    { p with
      titleParts := if p.inTitle then p.titleParts ++ [text] else p.titleParts
      scoreParts := if p.inScore then p.scoreParts ++ [text] else p.scoreParts
      commentParts := if p.inComments then p.commentParts ++ [text] else p.commentParts }

def handle (p : ViewParser) : Event → ViewParser
  | .starttag tag attrs => p.handleStarttag tag attrs
  | .endtag tag => p.handleEndtag tag
  | .data text => p.handleData text

def feed (p : ViewParser) (events : List Event) : ViewParser := events.foldl handle p

def parts (p : ViewParser) : ViewParts :=
  ⟨p.titleParts, p.bodyParts, p.scoreParts, p.commentParts, p.publishedRaw⟩

end ViewParser

/-- `parse_post_document`, from the events of the source. -/
def parsePostDocument (events : List Event) (sourcePostId : Text) :
    Except DocumentError DCInsidePostDocument :=
  document (ViewParser.feed {} events).parts sourcePostId

abbrev Element := String × Attrs

/-- The tags whose elements have to be closed in order; a stream may leave others open. -/
def nestingTags : List String := ["div", "span", "script", "style"]

def opened (stack : List Element) (tag : String) (attrs : Attrs) : List Element :=
  if tag ∈ nestingTags then (tag, attrs) :: stack else stack

def closed (stack : List Element) (tag : String) : List Element :=
  if tag ∈ nestingTags then stack.tail else stack

/-- Every end tag closes the innermost open element, and no element stays open. -/
def BalancedFrom : List Element → List Event → Prop
  | stack, [] => stack = []
  | stack, .starttag tag attrs :: rest => BalancedFrom (opened stack tag attrs) rest
  | stack, .endtag tag :: rest =>
    (tag ∈ nestingTags → stack.head?.map Prod.fst = some tag) ∧ BalancedFrom (closed stack tag) rest
  | stack, .data _ :: rest => BalancedFrom stack rest

instance decidableBalancedFrom : (stack : List Element) → (events : List Event) →
    Decidable (BalancedFrom stack events)
  | stack, [] => inferInstanceAs (Decidable (stack = []))
  | stack, .starttag tag attrs :: rest => decidableBalancedFrom (opened stack tag attrs) rest
  | stack, .endtag tag :: rest =>
    @instDecidableAnd _ _ inferInstance (decidableBalancedFrom (closed stack tag) rest)
  | stack, .data _ :: rest => decidableBalancedFrom stack rest

def Balanced (events : List Event) : Prop := BalancedFrom [] events

instance (events : List Event) : Decidable (Balanced events) := decidableBalancedFrom [] events

/-- `div.write_div` -/
def IsBody (e : Element) : Prop := e.1 = "div" ∧ "write_div".toList ∈ classes e.2

def IsSpan (name : String) (e : Element) : Prop := e.1 = "span" ∧ name.toList ∈ classes e.2

instance (e : Element) : Decidable (IsBody e) := inferInstanceAs (Decidable (_ ∧ _))
instance (name : String) (e : Element) : Decidable (IsSpan name e) := inferInstanceAs (Decidable (_ ∧ _))

def Captured (e : Element) : Prop :=
  IsBody e ∨ IsSpan "title_subject" e ∨ IsSpan "gall_reply_num" e ∨ IsSpan "gall_comment" e

instance (e : Element) : Decidable (Captured e) := inferInstanceAs (Decidable (_ ∨ _))

/-- The stream without the text and the attributes that lie outside the captured elements. -/
def visibleFrom : List Element → List Event → List Event
  | _, [] => []
  | stack, .starttag tag attrs :: rest =>
    .starttag tag (if (∃ e ∈ stack, Captured e) ∨ Captured (tag, attrs) then attrs else []) ::
      visibleFrom (opened stack tag attrs) rest
  | stack, .endtag tag :: rest => .endtag tag :: visibleFrom (closed stack tag) rest
  | stack, .data text :: rest =>
    if ∃ e ∈ stack, Captured e then .data text :: visibleFrom stack rest else visibleFrom stack rest

def visible (events : List Event) : List Event := visibleFrom [] events

/-- The title attribute of the first `span.gall_date` outside the body that has one. -/
def dateTitleFrom : List Element → List Event → Option Text
  | _, [] => none
  | stack, .starttag tag attrs :: rest =>
    (if IsSpan "gall_date" (tag, attrs) ∧ ¬∃ e ∈ stack, IsBody e then attributeValue attrs "title" else none).or
      (dateTitleFrom (opened stack tag attrs) rest)
  | stack, .endtag tag :: rest => dateTitleFrom (closed stack tag) rest
  | stack, .data _ :: rest => dateTitleFrom stack rest

def dateTitle (events : List Event) : Option Text := dateTitleFrom [] events

section Stack
variable {stack : List Element} {e : Element}

/-- The open elements of the outermost open body, the body included. -/
def bodyOf : List Element → List Element
  | [] => []
  | e :: outer => if bodyOf outer ≠ [] then e :: bodyOf outer else if IsBody e then [e] else []

def aroundBody : List Element → List Element
  | [] => []
  | e :: outer => if bodyOf outer ≠ [] then aroundBody outer else if IsBody e then outer else e :: outer

theorem bodyOf_eq_nil : bodyOf stack = [] ↔ ¬∃ e ∈ stack, IsBody e := by
  induction stack with
  | nil => simp [bodyOf]
  | cons e outer ih =>
    rw [bodyOf]
    by_cases hinner : bodyOf outer = []
    · rw [if_neg (not_not.mpr hinner)]
      have houter := ih.mp hinner
      by_cases hbody : IsBody e
      · simp [hbody]
      · simpa [hbody] using houter
    · rw [if_pos hinner]
      obtain ⟨inner, hmem, hbody⟩ := not_not.mp (mt ih.mpr hinner)
      simp only [List.cons_ne_nil, false_iff, not_not]
      exact ⟨inner, List.mem_cons_of_mem e hmem, hbody⟩

theorem aroundBody_of_nil (h : bodyOf stack = []) : aroundBody stack = stack := by
  cases stack with
  | nil => rfl
  | cons e outer =>
    rw [bodyOf_eq_nil] at h
    have houter : bodyOf outer = [] := bodyOf_eq_nil.mpr fun ⟨inner, hmem, hbody⟩ =>
      h ⟨inner, List.mem_cons_of_mem e hmem, hbody⟩
    have hbody : ¬IsBody e := fun hbody => h ⟨e, List.mem_cons_self, hbody⟩
    rw [aroundBody, if_neg (not_not.mpr houter), if_neg hbody]

theorem aroundBody_subset : aroundBody stack ⊆ stack := by
  induction stack with
  | nil => exact List.Subset.refl _
  | cons e outer ih =>
    rw [aroundBody]
    split_ifs
    · exact List.subset_cons_of_subset e ih
    · exact List.subset_cons_self e outer
    · exact List.Subset.refl _

def depthOf (tags : List String) (stack : List Element) : ℕ := (bodyOf stack).countP (·.1 ∈ tags)

/-- Inside a body at least its own `div` is open. -/
theorem depthOf_div : 0 < depthOf ["div"] stack ↔ bodyOf stack ≠ [] := by
  induction stack with
  | nil => simp [depthOf, bodyOf]
  | cons e outer ih =>
    rw [depthOf] at ih ⊢
    rw [bodyOf]
    by_cases hinner : bodyOf outer = []
    · rw [if_neg (not_not.mpr hinner)]
      by_cases hbody : IsBody e
      · simp [hbody, hbody.1]
      · simp [hbody]
    · rw [if_pos hinner, List.countP_cons]
      have := ih.mpr hinner
      simp only [ne_eq, List.cons_ne_nil, not_false_eq_true, iff_true]
      omega

/-- The counters of the parser count open elements of the body, and a flag is set only inside a span
    that sets it, outside the body. -/
structure Tracks (stack : List Element) (p : ViewParser) : Prop where
  body : p.bodyDepth = depthOf ["div"] stack
  ignored : p.ignoredDepth = depthOf ["script", "style"] stack
  title : p.inTitle = true → ∃ e ∈ aroundBody stack, IsSpan "title_subject" e
  score : p.inScore = true → ∃ e ∈ aroundBody stack, IsSpan "gall_reply_num" e
  comments : p.inComments = true → ∃ e ∈ aroundBody stack, IsSpan "gall_comment" e

end Stack

section Step
variable {stack : List Element} {p q : ViewParser} {tag : String} {attrs : Attrs}

theorem body_cons {e : Element} {outer : List Element} (h : bodyOf (e :: outer) ≠ []) :
    bodyOf (e :: outer) = e :: bodyOf outer ∧ aroundBody (e :: outer) = aroundBody outer := by
  rw [bodyOf] at h ⊢
  rw [aroundBody]
  by_cases hinner : bodyOf outer = []
  · rw [if_neg (not_not.mpr hinner)] at h ⊢
    rw [if_neg (not_not.mpr hinner), aroundBody_of_nil hinner, hinner]
    by_cases hbody : IsBody e
    · rw [if_pos hbody, if_pos hbody]
      exact ⟨rfl, rfl⟩
    · rw [if_neg hbody] at h
      exact absurd rfl h
  · rw [if_pos hinner, if_pos hinner]
    exact ⟨rfl, rfl⟩

theorem depthOf_cons {e : Element} {outer : List Element} (tags : List String)
    (h : bodyOf (e :: outer) ≠ []) :
    depthOf tags (e :: outer) = depthOf tags outer + if e.1 ∈ tags then 1 else 0 := by
  rw [depthOf, (body_cons h).1, List.countP_cons, depthOf]
  simp

theorem bodyOf_cons_ne {e : Element} {outer : List Element} (h : bodyOf outer ≠ []) :
    bodyOf (e :: outer) ≠ [] := by
  rw [bodyOf, if_pos h]
  exact List.cons_ne_nil _ _

theorem depthOf_nil (tags : List String) (h : bodyOf stack = []) : depthOf tags stack = 0 := by
  rw [depthOf, h]
  rfl

theorem Tracks.outside (h : Tracks stack p) : p.bodyDepth = 0 ↔ bodyOf stack = [] := by
  have hdiv := @depthOf_div stack
  rw [← h.body] at hdiv
  constructor
  · intro hzero
    by_contra hbody
    have := hdiv.mpr hbody
    omega
  · intro hnil
    rw [h.body, depthOf_nil _ hnil]

theorem handleStarttag_outside (h : p.bodyDepth = 0) : p.handleStarttag tag attrs =
    { p with
      bodyDepth := if IsBody (tag, attrs) then 1 else 0
      inTitle := p.inTitle || decide (IsSpan "title_subject" (tag, attrs))
      inScore := p.inScore || decide (IsSpan "gall_reply_num" (tag, attrs))
      inComments := p.inComments || decide (IsSpan "gall_comment" (tag, attrs))
      publishedRaw := p.publishedRaw.or
        (if IsSpan "gall_date" (tag, attrs) then attributeValue attrs "title" else none) } := by
  have houtside : ¬0 < p.bodyDepth := by omega
  have hset (c : Prop) [Decidable c] (p : ViewParser) : (if c then { p with inTitle := true } else p) =
      { p with inTitle := p.inTitle || decide c } := by
    by_cases hc : c <;> simp [hc]
  have hscore (c : Prop) [Decidable c] (p : ViewParser) : (if c then { p with inScore := true } else p) =
      { p with inScore := p.inScore || decide c } := by
    by_cases hc : c <;> simp [hc]
  have hcomments (c : Prop) [Decidable c] (p : ViewParser) :
      (if c then { p with inComments := true } else p) = { p with inComments := p.inComments || decide c } := by
    by_cases hc : c <;> simp [hc]
  have hbody (c : Prop) [Decidable c] : (if c then { p with bodyDepth := 1 } else p) =
      { p with bodyDepth := if c then 1 else 0 } := by
    by_cases hc : c
    · rw [if_pos hc, if_pos hc]
    · rw [if_neg hc, if_neg hc, ← h]
  have hdate (c d : Prop) [Decidable c] [Decidable d] (p : ViewParser) (title : Option Text) :
      (if c ∧ d ∧ p.publishedRaw = none then { p with publishedRaw := title } else p) =
        { p with publishedRaw := p.publishedRaw.or (if c ∧ d then title else none) } := by
    by_cases hnone : p.publishedRaw = none
    · by_cases hc : c ∧ d
      · simp [hnone, hc]
      · have hall : ¬(c ∧ d ∧ p.publishedRaw = none) := fun hall => hc ⟨hall.1, hall.2.1⟩
        rw [if_neg hall, if_neg hc, Option.or_none]
    · obtain ⟨raw, hraw⟩ := Option.ne_none_iff_exists'.mp hnone
      rw [if_neg fun hall => hnone hall.2.2, hraw, Option.some_or, ← hraw]
  unfold ViewParser.handleStarttag
  rw [if_neg houtside]
  dsimp only
  rw [hbody, hset, hscore, hcomments, hdate]
  rfl

theorem handleStarttag_inside (h : 0 < p.bodyDepth) : p.handleStarttag tag attrs =
    { p with
      bodyDepth := p.bodyDepth + if tag = "div" then 1 else 0
      ignoredDepth := p.ignoredDepth + if tag ∈ ["script", "style"] then 1 else 0
      bodyParts := (p.handleStarttag tag attrs).bodyParts } := by
  unfold ViewParser.handleStarttag
  rw [if_pos h]
  dsimp only
  split_ifs <;> rfl

theorem handleEndtag_inside (h : 0 < p.bodyDepth) : p.handleEndtag tag =
    { p with
      bodyDepth := p.bodyDepth - if tag = "div" then 1 else 0
      ignoredDepth := p.ignoredDepth - if tag ∈ ["script", "style"] then 1 else 0
      bodyParts := (p.handleEndtag tag).bodyParts } := by
  have hignored (c : Prop) [Decidable c] :
      (if c ∧ 0 < p.ignoredDepth then { p with ignoredDepth := p.ignoredDepth - 1 } else p) =
        { p with ignoredDepth := p.ignoredDepth - if c then 1 else 0 } := by
    by_cases hzero : p.ignoredDepth = 0
    · have hguard : ¬(c ∧ 0 < p.ignoredDepth) := by omega
      rw [if_neg hguard, hzero, Nat.zero_sub, ← hzero]
    · have hpos : 0 < p.ignoredDepth := by omega
      by_cases hc : c <;> simp [hc, hpos]
  unfold ViewParser.handleEndtag
  rw [if_pos h]
  dsimp only
  rw [hignored]
  split_ifs <;> rfl

theorem handleEndtag_outside (h : p.bodyDepth = 0) : p.handleEndtag tag =
    if tag = "span" then { p with inTitle := false, inScore := false, inComments := false } else p := by
  have houtside : ¬0 < p.bodyDepth := by omega
  rw [ViewParser.handleEndtag, if_neg houtside]

theorem span_opened {name : String} (h : bodyOf stack = [])
    (hspan : IsSpan name (tag, attrs) ∨ ∃ e ∈ aroundBody stack, IsSpan name e) :
    ∃ e ∈ aroundBody (opened stack tag attrs), IsSpan name e := by
  rw [aroundBody_of_nil h] at hspan
  rw [opened]
  by_cases hnesting : tag ∈ nestingTags
  · rw [if_pos hnesting, aroundBody, if_neg (not_not.mpr h)]
    rcases hspan with hnew | ⟨e, hmem, he⟩
    · have hbody : ¬IsBody (tag, attrs) := by
        intro hbody
        have hspan := hnew.1
        rw [hbody.1] at hspan
        exact absurd hspan (by decide)
      rw [if_neg hbody]
      exact ⟨(tag, attrs), List.mem_cons_self, hnew⟩
    · by_cases hbody : IsBody (tag, attrs)
      · rw [if_pos hbody]
        exact ⟨e, hmem, he⟩
      · rw [if_neg hbody]
        exact ⟨e, List.mem_cons_of_mem _ hmem, he⟩
  · rw [if_neg hnesting, aroundBody_of_nil h]
    refine hspan.resolve_left fun hnew => hnesting ?_
    have hspan : tag = "span" := hnew.1
    rw [hspan]
    decide

theorem starttag_tracks (h : Tracks stack p) :
    Tracks (opened stack tag attrs) (p.handleStarttag tag attrs) := by
  by_cases hbody : bodyOf stack = []
  · have hzero := h.outside.mpr hbody
    rw [handleStarttag_outside hzero]
    refine ⟨?_, ?_, fun ht => ?_, fun hs => ?_, fun hc => ?_⟩
    · dsimp only
      by_cases hnew : IsBody (tag, attrs)
      · have hdiv : tag = "div" := hnew.1
        have hnesting : tag ∈ nestingTags := by
          rw [hdiv]
          decide
        rw [if_pos hnew, opened, if_pos hnesting, depthOf, bodyOf, if_neg (not_not.mpr hbody),
          if_pos hnew]
        simp [hdiv]
      · rw [if_neg hnew, depthOf_nil]
        rw [opened]
        split_ifs
        · rw [bodyOf, if_neg (not_not.mpr hbody), if_neg hnew]
        · exact hbody
    · dsimp only
      rw [h.ignored, depthOf_nil _ hbody, opened]
      split_ifs
      · rw [depthOf, bodyOf, if_neg (not_not.mpr hbody)]
        by_cases hnew : IsBody (tag, attrs)
        · have hdiv : tag = "div" := hnew.1
          rw [if_pos hnew]
          simp [hdiv]
        · simp [hnew]
      · rw [depthOf_nil _ hbody]
    · apply span_opened hbody
      rw [Bool.or_eq_true, decide_eq_true_eq] at ht
      exact ht.symm.imp_right h.title
    · apply span_opened hbody
      rw [Bool.or_eq_true, decide_eq_true_eq] at hs
      exact hs.symm.imp_right h.score
    · apply span_opened hbody
      rw [Bool.or_eq_true, decide_eq_true_eq] at hc
      exact hc.symm.imp_right h.comments
  · have hpos : 0 < p.bodyDepth := Nat.pos_of_ne_zero (mt h.outside.mp hbody)
    rw [handleStarttag_inside hpos, opened]
    by_cases hnesting : tag ∈ nestingTags
    · have hne := @bodyOf_cons_ne (tag, attrs) stack hbody
      rw [if_pos hnesting]
      refine ⟨?_, ?_, ?_, ?_, ?_⟩
      · rw [depthOf_cons _ hne, ← h.body]
        simp
      · rw [depthOf_cons _ hne, ← h.ignored]
      · rw [(body_cons hne).2]
        exact h.title
      · rw [(body_cons hne).2]
        exact h.score
      · rw [(body_cons hne).2]
        exact h.comments
    · have hdiv : tag ≠ "div" := fun heq => hnesting (by rw [heq]; decide)
      have hignored : tag ∉ ["script", "style"] := fun hmem =>
        hnesting (List.mem_cons_of_mem _ (List.mem_cons_of_mem _ hmem))
      rw [if_neg hnesting, if_neg hdiv, if_neg hignored]
      exact ⟨h.body, h.ignored, h.title, h.score, h.comments⟩

theorem endtag_tracks (h : Tracks stack p)
    (hcloses : tag ∈ nestingTags → stack.head?.map Prod.fst = some tag) :
    Tracks (closed stack tag) (p.handleEndtag tag) := by
  by_cases hnesting : tag ∈ nestingTags
  · cases stack with
    | nil => cases hcloses hnesting
    | cons e outer =>
      have htag : e.1 = tag := Option.some.inj (hcloses hnesting)
      rw [closed, if_pos hnesting, List.tail_cons]
      by_cases hbody : bodyOf (e :: outer) = []
      · have houter : bodyOf outer = [] := by
          by_contra hne
          exact bodyOf_cons_ne hne hbody
        have hspan (name : String) (hne : tag ≠ "span")
            (hopen : ∃ other ∈ aroundBody (e :: outer), IsSpan name other) :
            ∃ other ∈ aroundBody outer, IsSpan name other := by
          rw [aroundBody_of_nil hbody] at hopen
          rw [aroundBody_of_nil houter]
          obtain ⟨other, hmem, hother⟩ := hopen
          refine ⟨other, (List.mem_cons.mp hmem).resolve_left fun heq => hne ?_, hother⟩
          rw [← htag, ← heq]
          exact hother.1
        have hdepth := h.body
        have hignored := h.ignored
        rw [depthOf_nil _ hbody, ← depthOf_nil _ houter] at hdepth hignored
        rw [handleEndtag_outside (h.outside.mpr hbody)]
        by_cases htagSpan : tag = "span"
        · rw [if_pos htagSpan]
          exact ⟨hdepth, hignored, (nomatch ·), (nomatch ·), (nomatch ·)⟩
        · rw [if_neg htagSpan]
          exact ⟨hdepth, hignored, fun ht => hspan _ htagSpan (h.title ht),
            fun hs => hspan _ htagSpan (h.score hs), fun hc => hspan _ htagSpan (h.comments hc)⟩
      · have hpos : 0 < p.bodyDepth := Nat.pos_of_ne_zero (mt h.outside.mp hbody)
        have hdepth := h.body
        have hignored := h.ignored
        rw [depthOf_cons _ hbody, htag] at hdepth hignored
        have haround := (body_cons hbody).2
        rw [handleEndtag_inside hpos]
        refine ⟨?_, ?_, ?_, ?_, ?_⟩
        · dsimp only
          rw [hdepth]
          simp
        · dsimp only
          rw [hignored, Nat.add_sub_cancel]
        · rw [← haround]
          exact h.title
        · rw [← haround]
          exact h.score
        · rw [← haround]
          exact h.comments
  · have hdiv : tag ≠ "div" := fun heq => hnesting (by rw [heq]; decide)
    have hspan : tag ≠ "span" := fun heq => hnesting (by rw [heq]; decide)
    have hignored : tag ∉ ["script", "style"] := fun hmem =>
      hnesting (List.mem_cons_of_mem _ (List.mem_cons_of_mem _ hmem))
    rw [closed, if_neg hnesting]
    by_cases hbody : p.bodyDepth = 0
    · rw [handleEndtag_outside hbody, if_neg hspan]
      exact h
    · rw [handleEndtag_inside (Nat.pos_of_ne_zero hbody), if_neg hdiv, if_neg hignored]
      exact ⟨h.body, h.ignored, h.title, h.score, h.comments⟩

theorem data_tracks (h : Tracks stack p) (text : Text) : Tracks stack (p.handleData text) := by
  rw [ViewParser.handleData]
  by_cases hbody : 0 < p.bodyDepth
  · rw [if_pos hbody]
    by_cases hignored : p.ignoredDepth = 0
    · rw [if_pos hignored]
      exact ⟨h.body, h.ignored, h.title, h.score, h.comments⟩
    · rw [if_neg hignored]
      exact h
  · rw [if_neg hbody]
    exact ⟨h.body, h.ignored, h.title, h.score, h.comments⟩

end Step

section Author
variable {stack : List Element} {p q : ViewParser} {events : List Event}

def ViewParser.hidden (p : ViewParser) : ViewParser := { p with publishedRaw := none }

theorem Tracks.uncaptured (h : Tracks stack p) (hnone : ¬∃ e ∈ stack, Captured e) :
    p.bodyDepth = 0 ∧ p.inTitle = false ∧ p.inScore = false ∧ p.inComments = false := by
  have hbody : bodyOf stack = [] := bodyOf_eq_nil.mpr fun ⟨e, hmem, he⟩ => hnone ⟨e, hmem, .inl he⟩
  refine ⟨h.outside.mpr hbody, ?_, ?_, ?_⟩
  · by_contra hset
    obtain ⟨e, hmem, he⟩ := h.title (Bool.eq_true_of_not_eq_false hset)
    exact hnone ⟨e, aroundBody_subset hmem, .inr (.inl he)⟩
  · by_contra hset
    obtain ⟨e, hmem, he⟩ := h.score (Bool.eq_true_of_not_eq_false hset)
    exact hnone ⟨e, aroundBody_subset hmem, .inr (.inr (.inl he))⟩
  · by_contra hset
    obtain ⟨e, hmem, he⟩ := h.comments (Bool.eq_true_of_not_eq_false hset)
    exact hnone ⟨e, aroundBody_subset hmem, .inr (.inr (.inr he))⟩

theorem handle_published (p : ViewParser) (raw : Option Text) (event : Event) :
    (ViewParser.handle { p with publishedRaw := raw } event).hidden = (p.handle event).hidden := by
  cases event with
  | starttag tag attrs =>
    rw [ViewParser.handle, ViewParser.handle]
    by_cases hbody : p.bodyDepth = 0
    · have hother : ({ p with publishedRaw := raw } : ViewParser).bodyDepth = 0 := hbody
      rw [handleStarttag_outside hother, handleStarttag_outside hbody]
      rfl
    · have hpos : 0 < p.bodyDepth := Nat.pos_of_ne_zero hbody
      rw [ViewParser.handleStarttag, ViewParser.handleStarttag, if_pos hpos, if_pos hpos]
      dsimp only
      split_ifs <;> rfl
  | endtag tag =>
    rw [ViewParser.handle, ViewParser.handle, ViewParser.handleEndtag, ViewParser.handleEndtag]
    dsimp only
    split_ifs <;> rfl
  | data text =>
    rw [ViewParser.handle, ViewParser.handle, ViewParser.handleData, ViewParser.handleData]
    dsimp only
    split_ifs <;> rfl

theorem handle_congr (h : p.hidden = q.hidden) (event : Event) :
    (p.handle event).hidden = (q.handle event).hidden := by
  have hp := handle_published p none event
  have hq := handle_published q none event
  rw [← hp, ← hq]
  exact congrArg (fun r => (ViewParser.handle r event).hidden) h

theorem starttag_uncaptured {tag : String} {attrs : Attrs} (h : p.bodyDepth = 0)
    (hnone : ¬Captured (tag, attrs)) : (p.handleStarttag tag attrs).hidden = p.hidden := by
  rw [Captured, not_or, not_or, not_or] at hnone
  rw [handleStarttag_outside h]
  simp only [ViewParser.hidden, hnone.1, hnone.2.1, hnone.2.2.1, hnone.2.2.2, ← h, decide_false,
    Bool.or_false, if_false]

theorem not_captured_nil (tag : String) : ¬Captured (tag, []) := by
  have hclasses : classes [] = [] := by decide
  simp [Captured, IsBody, IsSpan, hclasses]

theorem feed_visible (h : Tracks stack p) (hbalanced : BalancedFrom stack events)
    (hpq : p.hidden = q.hidden) :
    (p.feed events).hidden = (q.feed (visibleFrom stack events)).hidden := by
  induction events generalizing stack p q with
  | nil => exact hpq
  | cons event rest ih =>
    cases event with
    | starttag tag attrs =>
      rw [visibleFrom]
      apply ih (starttag_tracks h) hbalanced
      by_cases hcaptured : (∃ e ∈ stack, Captured e) ∨ Captured (tag, attrs)
      · rw [if_pos hcaptured]
        exact handle_congr hpq (.starttag tag attrs)
      · rw [if_neg hcaptured]
        obtain ⟨hstack, hnew⟩ := not_or.mp hcaptured
        have hp := (h.uncaptured hstack).1
        have hq : q.bodyDepth = 0 := (congrArg ViewParser.bodyDepth hpq).symm.trans hp
        have hkept := starttag_uncaptured hp hnew
        have hother := starttag_uncaptured hq (not_captured_nil tag)
        exact hkept.trans (hpq.trans hother.symm)
    | endtag tag =>
      rw [visibleFrom]
      exact ih (endtag_tracks h hbalanced.1) hbalanced.2 (handle_congr hpq (.endtag tag))
    | data text =>
      rw [visibleFrom]
      by_cases hcaptured : ∃ e ∈ stack, Captured e
      · rw [if_pos hcaptured]
        exact ih (data_tracks h text) hbalanced (handle_congr hpq (.data text))
      · rw [if_neg hcaptured]
        obtain ⟨hbody, htitle, hscore, hcomments⟩ := h.uncaptured hcaptured
        have hskipped : p.handle (.data text) = p := by
          rw [ViewParser.handle, ViewParser.handleData, if_neg (by omega), if_neg (by simp [htitle]),
            if_neg (by simp [hscore]), if_neg (by simp [hcomments])]
        change ((p.handle (.data text)).feed rest).hidden = _
        rw [hskipped]
        exact ih h hbalanced hpq

theorem feed_published (h : Tracks stack p) (hbalanced : BalancedFrom stack events) :
    (p.feed events).publishedRaw = p.publishedRaw.or (dateTitleFrom stack events) := by
  induction events generalizing stack p with
  | nil => exact (Option.or_none).symm
  | cons event rest ih =>
    cases event with
    | starttag tag attrs =>
      rw [dateTitleFrom]
      have hrest := ih (@starttag_tracks stack p tag attrs h) hbalanced
      refine hrest.trans ?_
      rw [← Option.or_assoc]
      congr 1
      by_cases hbody : bodyOf stack = []
      · have houtside := bodyOf_eq_nil.mp hbody
        rw [handleStarttag_outside (h.outside.mpr hbody)]
        simp [houtside]
      · have hpos : 0 < p.bodyDepth := Nat.pos_of_ne_zero (mt h.outside.mp hbody)
        have hinside := not_not.mp (mt bodyOf_eq_nil.mpr hbody)
        rw [handleStarttag_inside hpos]
        simp [hinside]
    | endtag tag =>
      refine (ih (endtag_tracks h hbalanced.1) hbalanced.2).trans ?_
      rw [dateTitleFrom]
      congr 1
      by_cases hbody : p.bodyDepth = 0
      · rw [handleEndtag_outside hbody]
        split_ifs <;> rfl
      · rw [handleEndtag_inside (Nat.pos_of_ne_zero hbody)]
    | data text =>
      refine (ih (data_tracks h text) hbalanced).trans ?_
      rw [dateTitleFrom]
      congr 1
      rw [ViewParser.handleData]
      split_ifs <;> rfl

theorem init_tracks : Tracks [] {} := ⟨rfl, rfl, (nomatch ·), (nomatch ·), (nomatch ·)⟩

/-- Balanced streams with the same visible part and the same published title have the same document,
    or the same error. -/
theorem document_author_free (s t : List Event) (hs : Balanced s) (ht : Balanced t)
    (hvisible : visible s = visible t) (hdate : dateTitle s = dateTitle t) (sourcePostId : Text) :
    parsePostDocument s sourcePostId = parsePostDocument t sourcePostId := by
  have hhidden : (ViewParser.feed {} s).hidden = (ViewParser.feed {} t).hidden := by
    have hleft := @feed_visible [] {} {} s init_tracks hs rfl
    have hright := @feed_visible [] {} {} t init_tracks ht rfl
    rw [hleft, hright]
    exact congrArg (fun events => (ViewParser.feed {} events).hidden) hvisible
  have hpublished : (ViewParser.feed {} s).publishedRaw = (ViewParser.feed {} t).publishedRaw := by
    rw [feed_published init_tracks hs, feed_published init_tracks ht]
    exact congrArg _ hdate
  have hparts (p : ViewParser) : p.parts = { p.hidden.parts with publishedRaw := p.publishedRaw } := rfl
  rw [parsePostDocument, parsePostDocument, hparts, hparts (ViewParser.feed {} t), hhidden, hpublished]

/-- The title attribute of the first `span.gall_date`. -/
def firstDateTitle (events : List Event) : Option Text :=
  (events.findSome? fun event =>
    match event with
    | .starttag tag attrs =>
      if IsSpan "gall_date" (tag, attrs) then some (attributeValue attrs "title") else none
    | _ => none).join

def spanClass (name : String) : String × Option Text := ("class", some name.toList)

/-- A page whose first date is in the body, and whose second one has no title. -/
def datedPage (author title : String) : List Event :=
  [.starttag "span" [spanClass "title_subject"], .data "Title".toList, .endtag "span",
   .starttag "span" [spanClass "nickname"], .data author.toList, .endtag "span",
   .starttag "div" [("class", some "write_div".toList)],
   .starttag "span" [spanClass "gall_date", ("title", some "2023-01-01 00:00:00".toList)], .endtag "span",
   .endtag "div",
   .starttag "span" [spanClass "gall_date"], .endtag "span",
   .starttag "span" [spanClass "gall_date", ("title", some title.toList)], .endtag "span"]

theorem document_author_free_nickname : Balanced (datedPage "first" "2024-01-01 00:00:00") ∧
    Balanced (datedPage "second" "2024-01-01 00:00:00") ∧
    parsePostDocument (datedPage "first" "2024-01-01 00:00:00") [] =
      parsePostDocument (datedPage "second" "2024-01-01 00:00:00") [] :=
  ⟨by decide +kernel, by decide +kernel,
    document_author_free _ _ (by decide +kernel) (by decide +kernel) (by decide +kernel)
      (by decide +kernel) []⟩

/-- Another date than the first one can be the published time. -/
theorem later_date_published : ¬∀ s t : List Event, Balanced s → Balanced t → visible s = visible t →
    firstDateTitle s = firstDateTitle t → ∀ sourcePostId,
      parsePostDocument s sourcePostId = parsePostDocument t sourcePostId := by
  intro h
  have hsame := h (datedPage "author" "2024-01-01 00:00:00") (datedPage "author" "2024-01-02 00:00:00")
    (by decide +kernel) (by decide +kernel) (by decide +kernel) (by decide +kernel) []
  exact absurd hsame (by decide +kernel)

end Author

end PredictionMarketMonitor.DCInsideView
