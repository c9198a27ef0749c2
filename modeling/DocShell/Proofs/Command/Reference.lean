import DocShell.Command
import DocShell.Proofs.Text.Splitting

/-!
# References as they are written

A reference is a row of segments with points behind them, and the name of the first method in
front of its parenthesis.  A segment is a name, or a call of `getCollection`.

## Strategy

`Reference.read?` takes segments off the text, one after the other, until a method stands
at the start.

* The text of a segment (`Segment.Written`) ends behind its point, the name of a method in
  front of its parenthesis, and the reader stops there whatever follows
  (`read?_written`, `read?_method`).
* So the text up to the first parenthesis that is not part of a segment (`Leads`) decides
  what is read, or that nothing is (`read?_leads`); and whatever is read starts with such a
  text (`exists_leads_of_read?`).
-/

namespace DocShell.Reference

open Text (AllBlank)

variable {text name rest inside : List Char} {reference : Reference}

/-- A segment as it is written. -/
inductive Segment where
  /-- What stands in front of a point. -/
  | name (text : List Char)
  /-- What stands between the parentheses of a call of `getCollection`. -/
  | call (inside : List Char)
  deriving DecidableEq, Repr

/-- The name that a segment gives, if it gives one. -/
def Segment.name? : Segment → Option (List Char)
  | .name text => if isName (Text.trim text) then some (Text.trim text) else none
  | .call inside => quotedName? inside

/-- A parenthesis in front of the text is closed right behind it, whatever follows. -/
def Enclosed (inside : List Char) : Prop :=
  ∀ behind, Text.splitParen ('(' :: (inside ++ ')' :: behind)) = some (inside, behind)

/-- The text is this segment, its point included. -/
inductive Segment.Written : Segment → List Char → Prop where
  | name {text : List Char} (htext : ∀ c ∈ text, insideName c = true) :
      Written (.name text) (text ++ ['.'])
  | call {called inside gap : List Char} (hcalled : Text.trim called = getCollection)
      (hinside : Enclosed inside) (hgap : AllBlank gap) :
      Written (.call inside) (called ++ '(' :: (inside ++ ')' :: (gap ++ ['.'])))

/-- The text in front of a parenthesis is these segments and the name of a method: the
parenthesis is the first one that is not part of a segment. -/
inductive Leads : List Segment → List Char → List Char → Prop where
  | method {name : List Char} (hname : ∀ c ∈ name, insideName c = true)
      (hother : Text.trim name ≠ getCollection) : Leads [] name name
  | segment {segment : Segment} {segments : List Segment} {text method rest : List Char}
      (hsegment : segment.Written text) (hrest : Leads segments method rest) :
      Leads (segment :: segments) method (text ++ rest)

/-! ## Calls of `getCollection` -/

theorem collectionCall?_eq_some_iff {call : List Char} :
    collectionCall? text = some call ↔
      ∃ gap rest, AllBlank gap ∧ text = getCollection ++ (gap ++ '(' :: rest) ∧
        call = '(' :: rest := by
  constructor
  · intro hcall
    unfold collectionCall? at hcall
    split at hcall
    · simp at hcall
    · next afterName hname =>
        split at hcall
        · next rest htrim =>
            obtain ⟨gap, hgap, hafter⟩ := Text.exists_append_trimStart afterName
            rw [htrim] at hafter
            refine ⟨gap, rest, hgap, ?_, (Option.some.inj hcall).symm⟩
            rw [Text.behind?_eq_some_iff.mp hname, hafter]
        · simp at hcall
  · rintro ⟨gap, rest, hgap, rfl, rfl⟩
    have hname : Text.behind? getCollection (getCollection ++ (gap ++ '(' :: rest)) =
        some (gap ++ '(' :: rest) := Text.behind?_eq_some_iff.mpr rfl
    have htrim : Text.trimStart (gap ++ '(' :: rest) = '(' :: rest := by
      rw [Text.trimStart_append hgap, Text.trimStart_cons (by decide)]
    simp only [collectionCall?, hname, htrim]

theorem insideName_of_isBlank {c : Char} (hc : Text.isBlank c = true) : insideName c = true := by
  have hne : c ≠ '.' ∧ c ≠ '(' := by
    constructor <;> rintro rfl <;> exact absurd hc (by decide)
  simp [insideName, hne]

theorem takeWhile_name (hname : ∀ c ∈ name, insideName c = true) {c : Char}
    (hc : insideName c = false) (rest : List Char) :
    (name ++ c :: rest).takeWhile insideName = name ∧
      (name ++ c :: rest).dropWhile insideName = c :: rest := by
  rw [List.takeWhile_append_of_pos hname, List.dropWhile_append_of_pos hname]
  simp [hc]

/-- Without the blanks in front of it a name is the same name. -/
theorem trimStart_name (hname : ∀ c ∈ name, insideName c = true) :
    (∀ c ∈ Text.trimStart name, insideName c = true) ∧
      Text.trim (Text.trimStart name) = Text.trim name := by
  obtain ⟨gap, -, hstart⟩ := Text.exists_append_trimStart name
  refine ⟨fun c hc => hname c ?_, (Text.padded_trimStart name).trim_eq.symm⟩
  rw [hstart]
  exact List.mem_append_right gap hc

/-- Both ways of cutting the text, at the end of the name and at the parenthesis of the call,
cut it at the same place. -/
theorem name_of_collectionCall? (hname : ∀ c ∈ name, insideName c = true) {c : Char}
    (hc : insideName c = false) {call : List Char}
    (hcall : collectionCall? (name ++ c :: rest) = some call) :
    c = '(' ∧ ∃ gap, AllBlank gap ∧ name = getCollection ++ gap := by
  obtain ⟨gap, behind, hgap, htext, -⟩ := collectionCall?_eq_some_iff.mp hcall
  have hget : ∀ d ∈ getCollection, insideName d = true := List.all_eq_true.mp rfl
  have hfront : ∀ d ∈ getCollection ++ gap, insideName d = true := by
    intro d hd
    rcases List.mem_append.mp hd with hd | hd
    · exact hget d hd
    · exact insideName_of_isBlank (hgap d hd)
  rw [← List.append_assoc] at htext
  obtain ⟨htake, hdrop⟩ := takeWhile_name hname hc rest
  obtain ⟨htake', hdrop'⟩ := takeWhile_name hfront (by decide : insideName '(' = false) behind
  rw [htext, htake'] at htake
  rw [htext, hdrop'] at hdrop
  exact ⟨(List.cons.inj hdrop).1.symm, gap, hgap, htake.symm⟩

theorem trim_getCollection {lead trail : List Char} (hlead : AllBlank lead)
    (htrail : AllBlank trail) : Text.trim (lead ++ (getCollection ++ trail)) = getCollection := by
  have hpadded : Text.Padded getCollection (lead ++ (getCollection ++ trail)) :=
    ⟨lead, trail, hlead, htrail, rfl⟩
  exact hpadded.trim_eq.trans (by decide)

/-- A name with a point behind it is no call, even if it is `getCollection`. -/
theorem collectionCall?_point (hname : ∀ c ∈ name, insideName c = true) (rest : List Char) :
    collectionCall? (name ++ '.' :: rest) = none := by
  rw [Option.eq_none_iff_forall_ne_some]
  intro call hcall
  obtain ⟨hparen, -⟩ := name_of_collectionCall? hname (by decide) hcall
  exact absurd hparen (by decide)

/-- A name with a parenthesis behind it is a call only if it is `getCollection`. -/
theorem collectionCall?_paren (hname : ∀ c ∈ name, insideName c = true)
    (hother : Text.trim name ≠ getCollection) (rest : List Char) :
    collectionCall? (name ++ '(' :: rest) = none := by
  rw [Option.eq_none_iff_forall_ne_some]
  intro call hcall
  obtain ⟨-, gap, hgap, rfl⟩ := name_of_collectionCall? hname (by decide) hcall
  exact hother (trim_getCollection Text.allBlank_nil hgap)

/-- `getCollection` with a parenthesis behind it is a call. -/
theorem collectionCall?_getCollection (htrim : Text.trim name = getCollection)
    (hstart : Text.trimStart name = name) (rest : List Char) :
    collectionCall? (name ++ '(' :: rest) = some ('(' :: rest) := by
  obtain ⟨lead, trail, hlead, htrail, hget⟩ := Text.padded_trim name
  rw [htrim] at hget
  have hname : name = getCollection ++ trail :=
    calc name = Text.trimStart name := hstart.symm
      _ = Text.trimStart (getCollection ++ trail) := by rw [hget, Text.trimStart_append hlead]
      _ = getCollection ++ trail := Text.trimStart_cons (by decide) _
  exact collectionCall?_eq_some_iff.mpr ⟨trail, rest, htrail, by rw [hname, List.append_assoc], rfl⟩

/-! ## Reading what is written -/

theorem readFrom?_of_none (hmethod : method? text = none) (hsegment : takeSegment? text = none) :
    readFrom? text = none := by
  rw [readFrom?, hmethod]
  simp only
  split
  · next hfound => simp [hsegment] at hfound
  · rfl

/-- A name in front of a point is a segment. -/
theorem read?_name (htext : ∀ c ∈ text, insideName c = true) (rest : List Char) :
    read? (text ++ '.' :: rest) =
      if isName (Text.trim text) then (read? rest).map (addSegment (Text.trim text)) else none := by
  obtain ⟨hinside, htrim⟩ := trimStart_name htext
  have hcall := collectionCall?_point hinside rest
  obtain ⟨htake, hdrop⟩ := takeWhile_name hinside (by decide : insideName '.' = false) rest
  have hmethod : method? (Text.trimStart text ++ '.' :: rest) = none := by
    simp only [method?, hcall, hdrop]
    rfl
  have hsegment : takeSegment? (Text.trimStart text ++ '.' :: rest) =
      if isName (Text.trim text) then some (Text.trim text, Text.trimStart rest) else none := by
    simp only [takeSegment?, hcall, hdrop, htake, htrim]
  rw [read?, Text.trimStart_append_cons (by decide)]
  split
  · next hvalid =>
      rw [if_pos hvalid] at hsegment
      exact readFrom?_of_segment hmethod hsegment
  · next hvalid =>
      rw [if_neg hvalid] at hsegment
      exact readFrom?_of_none hmethod hsegment

/-- A call of `getCollection` with a point behind it is a segment. -/
theorem read?_call {called gap : List Char} (hcalled : Text.trim called = getCollection)
    (hinside : Enclosed inside) (hgap : AllBlank gap) (rest : List Char) :
    read? (called ++ '(' :: (inside ++ ')' :: (gap ++ '.' :: rest))) =
      (quotedName? inside).bind fun name => (read? rest).map (addSegment name) := by
  obtain ⟨lead, trail, hlead, htrail, hpadded⟩ := Text.padded_trim called
  rw [hcalled] at hpadded
  subst hpadded
  let behind := gap ++ '.' :: rest
  have hstart : Text.trimStart
      (lead ++ (getCollection ++ trail) ++ '(' :: (inside ++ ')' :: behind)) =
        getCollection ++ (trail ++ '(' :: (inside ++ ')' :: behind)) := by
    rw [List.append_assoc, Text.trimStart_append hlead, List.append_assoc]
    exact Text.trimStart_cons (by decide) _
  have hcall : collectionCall? (getCollection ++ (trail ++ '(' :: (inside ++ ')' :: behind))) =
      some ('(' :: (inside ++ ')' :: behind)) :=
    collectionCall?_eq_some_iff.mpr ⟨trail, _, htrail, rfl, rfl⟩
  have hpoint : afterPoint? behind = some (Text.trimStart rest) := by
    have htrim : Text.trimStart behind = '.' :: rest := by
      rw [Text.trimStart_append hgap, Text.trimStart_cons (by decide)]
    simp only [afterPoint?, htrim]
  rw [read?, hstart]
  have hmethod : method? (getCollection ++ (trail ++ '(' :: (inside ++ ')' :: behind))) = none := by
    simp only [method?, hcall]
  have hsegment : takeSegment? (getCollection ++ (trail ++ '(' :: (inside ++ ')' :: behind))) =
      (quotedName? inside).map fun name => (name, Text.trimStart rest) := by
    simp only [takeSegment?, hcall, hinside behind, hpoint]
    cases quotedName? inside <;> rfl
  cases hname : quotedName? inside with
  | none =>
      rw [hname] at hsegment
      exact readFrom?_of_none hmethod hsegment
  | some name =>
      rw [hname] at hsegment
      exact readFrom?_of_segment hmethod hsegment

/-- A name in front of a parenthesis is the first method. -/
theorem read?_method (hname : ∀ c ∈ name, insideName c = true)
    (hother : Text.trim name ≠ getCollection) (arguments : List Char) :
    read? (name ++ '(' :: arguments) =
      if isName (Text.trim name) then
        some { segments := [], method := Text.trim name,
               chain := Text.trimStart name ++ '(' :: arguments, arguments := '(' :: arguments }
      else none := by
  obtain ⟨hinside, htrim⟩ := trimStart_name hname
  have hcall : collectionCall? (Text.trimStart name ++ '(' :: arguments) = none :=
    collectionCall?_paren hinside (htrim ▸ hother) arguments
  obtain ⟨htake, hdrop⟩ := takeWhile_name hinside (by decide : insideName '(' = false) arguments
  have hsegment : takeSegment? (Text.trimStart name ++ '(' :: arguments) = none := by
    simp only [takeSegment?, hcall, hdrop]
    rfl
  rw [read?, Text.trimStart_append_cons (by decide)]
  split
  · next hvalid =>
      refine readFrom?_of_method ?_
      simp only [method?, hcall, hdrop, htake, htrim, hvalid, if_true]
  · next hvalid =>
      refine readFrom?_of_none ?_ hsegment
      simp only [method?, hcall, hdrop, htake, htrim, hvalid]
      rfl

theorem read?_written {segment : Segment} (hwritten : segment.Written text) (rest : List Char) :
    read? (text ++ rest) =
      segment.name?.bind fun name => (read? rest).map (addSegment name) := by
  cases hwritten with
  | name htext =>
      rw [List.append_assoc, List.singleton_append, read?_name htext, Segment.name?]
      split <;> rfl
  | call hcalled hinside hgap =>
      have hread := read?_call hcalled hinside hgap rest
      simpa [Segment.name?] using hread

/-- **The text up to the first parenthesis outside of segments decides the reference.**
Segments and method, and whether there are any, do not depend on what stands behind it. -/
theorem read?_leads {segments : List Segment} {method front : List Char}
    (hleads : Leads segments method front) (arguments : List Char) :
    read? (front ++ '(' :: arguments) =
      if isName (Text.trim method) then
        (segments.mapM Segment.name?).map fun names =>
          { segments := names.map String.ofList, method := Text.trim method,
            chain := Text.trimStart method ++ '(' :: arguments, arguments := '(' :: arguments }
      else none := by
  induction hleads with
  | method hname hother => rw [read?_method hname hother, List.mapM_nil]; rfl
  | @segment segment segments text method rest hsegment hrest ih =>
      rw [List.append_assoc, read?_written hsegment, ih, List.mapM_cons]
      cases segment.name? with
      | none => split <;> rfl
      | some name =>
          cases segments.mapM Segment.name? with
          | none => split <;> rfl
          | some names => split <;> rfl

/-! ## Writing what is read -/

theorem exists_of_afterPoint? {behind next : List Char} (hafter : afterPoint? behind = some next) :
    ∃ gap rest, AllBlank gap ∧ behind = gap ++ '.' :: rest ∧ next = Text.trimStart rest := by
  unfold afterPoint? at hafter
  split at hafter
  · next tail htrim =>
      obtain ⟨gap, hgap, hbehind⟩ := Text.exists_append_trimStart behind
      rw [htrim] at hbehind
      exact ⟨gap, tail, hgap, hbehind, (Option.some.inj hafter).symm⟩
  · simp at hafter

/-- What stands in front of the end of a name is a name, blanks in front of it included. -/
theorem exists_name_of_dropWhile {c : Char} (hdrop : text.dropWhile insideName = c :: rest)
    {gap : List Char} (hgap : AllBlank gap) :
    ∃ name, (∀ d ∈ gap ++ name, insideName d = true) ∧ text = name ++ c :: rest := by
  refine ⟨text.takeWhile insideName, ?_, by rw [← hdrop, List.takeWhile_append_dropWhile]⟩
  rw [List.forall_mem_append]
  exact ⟨fun d hd => insideName_of_isBlank (hgap d hd), List.all_eq_true.mp List.all_takeWhile⟩

/-- What is taken as a segment is written as one, behind any blanks. -/
theorem exists_written_of_takeSegment? (htake : takeSegment? text = some (name, rest))
    {gap : List Char} (hgap : AllBlank gap) :
    ∃ segment front behind, Segment.Written segment (gap ++ front) ∧ text = front ++ behind ∧
      rest = Text.trimStart behind ∧ front ≠ [] := by
  unfold takeSegment? at htake
  split at htake
  · next call hcall =>
      obtain ⟨trail, inner, htrail, rfl, rfl⟩ := collectionCall?_eq_some_iff.mp hcall
      split at htake
      · simp at htake
      · next inside afterCall hsplit =>
          split at htake
          · next found next hquoted hafter =>
              obtain ⟨-, rfl⟩ := Prod.mk.inj (Option.some.inj htake)
              obtain ⟨hinner, hinside⟩ := Text.of_splitParen hsplit
              obtain ⟨-, rfl⟩ := List.cons.inj hinner
              obtain ⟨between, behind, hbetween, rfl, rfl⟩ := exists_of_afterPoint? hafter
              have hcalled := trim_getCollection hgap htrail
              have hwritten := Segment.Written.call hcalled hinside hbetween
              refine ⟨.call inside, getCollection ++ (trail ++ '(' :: (inside ++ ')' ::
                (between ++ ['.']))), behind, ?_, by simp, rfl, by simp⟩
              simpa using hwritten
          · simp at htake
  · simp only at htake
    split at htake
    · next tail hdrop =>
        split at htake
        · obtain ⟨-, rfl⟩ := Prod.mk.inj (Option.some.inj htake)
          obtain ⟨found, hinside, rfl⟩ := exists_name_of_dropWhile hdrop hgap
          have hwritten := Segment.Written.name hinside
          rw [List.append_assoc] at hwritten
          exact ⟨_, _, tail, hwritten, by simp, rfl, by simp⟩
        · simp at htake
    · simp at htake

/-- What is taken as the first method is written as one, behind any blanks. -/
theorem exists_leads_of_method? (hmethod : method? text = some reference)
    (hstart : Text.trimStart text = text) {gap : List Char} (hgap : AllBlank gap) :
    ∃ name arguments, Leads [] (gap ++ name) (gap ++ name) ∧ text = name ++ '(' :: arguments := by
  unfold method? at hmethod
  split at hmethod
  · simp at hmethod
  · next hnone =>
      simp only at hmethod
      split at hmethod
      · next rest hdrop =>
          obtain ⟨name, hinside, htext⟩ := exists_name_of_dropWhile hdrop hgap
          refine ⟨name, rest, .method hinside fun htrim => ?_, htext⟩
          -- If the name were `getCollection`, its parenthesis would have been taken as a call.
          have hname : Text.trimStart name = name := by
            rw [htext, Text.trimStart_append_cons (by decide)] at hstart
            exact List.append_cancel_right hstart
          have hpadded : Text.Padded name (gap ++ name) :=
            ⟨gap, [], hgap, Text.allBlank_nil, by simp⟩
          rw [hpadded.trim_eq] at htrim
          rw [htext, collectionCall?_getCollection htrim hname] at hnone
          cases hnone
      · simp at hmethod

/-- Whatever is read starts with segments and the name of a method. -/
theorem exists_leads_of_read? (hread : read? text = some reference) :
    ∃ segments method front arguments, Leads segments method front ∧
      text = front ++ '(' :: arguments := by
  -- The reader goes on behind the blanks after a point, so the induction is on the length.
  induction hlength : text.length using Nat.strongRecOn generalizing text reference with
  | ind n ih =>
      obtain ⟨gap, hgap, htext⟩ := Text.exists_append_trimStart text
      rw [read?, readFrom?] at hread
      split at hread
      · next hmethod =>
          have hstart : Text.trimStart (Text.trimStart text) = Text.trimStart text := by
            rw [← Text.trimStart_append hgap, ← htext]
          obtain ⟨name, arguments, hleads, hname⟩ := exists_leads_of_method? hmethod hstart hgap
          exact ⟨[], _, _, arguments, hleads, by rw [List.append_assoc, ← hname, ← htext]⟩
      · next hmethod =>
          split at hread
          · next name rest hsegment =>
              obtain ⟨inner, hinner, rfl⟩ := Option.map_eq_some_iff.mp hread
              obtain ⟨segment, front, behind, hwritten, hfront, rfl, hne⟩ :=
                exists_written_of_takeSegment? hsegment hgap
              have hlt : behind.length < n := by
                have hpos := List.length_pos_iff.mpr hne
                rw [← hlength, htext, hfront]
                simp only [List.length_append]
                omega
              obtain ⟨segments, method, next, arguments, hleads, rfl⟩ := ih _ hlt hinner rfl
              refine ⟨segment :: segments, method, _, arguments, .segment hwritten hleads, ?_⟩
              rw [htext, hfront]
              simp only [List.append_assoc]
          · simp at hread

theorem Leads.exists_append {segments : List Segment} {method front : List Char}
    (hleads : Leads segments method front) : ∃ before, front = before ++ method := by
  induction hleads with
  | method _ _ => exact ⟨[], rfl⟩
  | @segment segment segments text method rest _ _ ih =>
      obtain ⟨before, rfl⟩ := ih
      exact ⟨text ++ before, by rw [List.append_assoc]⟩

/-- Whatever stands behind the first parenthesis of a method, segments and method are the
same. -/
theorem exists_front_of_read? (hread : read? text = some reference) :
    ∃ front name arguments, text = front ++ (name ++ '(' :: arguments) ∧
      ∀ other, read? (front ++ (name ++ '(' :: other)) =
        some { reference with chain := name ++ '(' :: other, arguments := '(' :: other } := by
  obtain ⟨segments, method, front, arguments, hleads, rfl⟩ := exists_leads_of_read? hread
  obtain ⟨before, rfl⟩ := hleads.exists_append
  obtain ⟨gap, hgap, hmethod⟩ := Text.exists_append_trimStart method
  have hfront : ∀ other, before ++ method ++ '(' :: other =
      before ++ gap ++ (Text.trimStart method ++ '(' :: other) := by
    intro other
    calc before ++ method ++ '(' :: other
        = before ++ (gap ++ Text.trimStart method) ++ '(' :: other := by rw [← hmethod]
      _ = before ++ gap ++ (Text.trimStart method ++ '(' :: other) := by
        simp only [List.append_assoc]
  refine ⟨before ++ gap, Text.trimStart method, arguments, hfront arguments, fun other => ?_⟩
  rw [read?_leads hleads] at hread
  split at hread
  · next hvalid =>
      obtain ⟨names, hnames, rfl⟩ := Option.map_eq_some_iff.mp hread
      rw [← hfront, read?_leads hleads, if_pos hvalid, hnames]
      rfl
  · cases hread

end DocShell.Reference
