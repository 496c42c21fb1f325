import DocLayout.Proofs.Doc.Composed
import DocLayout.Proofs.Doc.Row
import DocLayout.Proofs.Layout.Equations

/-!
# Rows are laid out document by document

A row that is put together is laid out as its documents one after the other, blanks included, since
these leave nothing.  So a row may be joined in two parts, with the separator between them.
-/

namespace DocLayout

variable {meaning : Meaning} {width column : Int} {rest : List Obligation}

namespace Interchangeable

/-- Two documents that are put together are laid out one after the other. -/
theorem append_doc (indent : Int) (left right : Doc) :
    Interchangeable meaning width column (⟨indent, .doc (left.append right)⟩ :: rest)
      (⟨indent, .doc left⟩ :: ⟨indent, .doc right⟩ :: rest) := by
  by_cases leftEmpty : left = .empty
  · rw [leftEmpty, Doc.empty_append]
    exact (blank indent false).symm
  by_cases rightEmpty : right = .empty
  · rw [rightEmpty, Doc.append_empty]
    exact .cons (fun _ => (blank indent false).symm) _ column
  · rw [Doc.append_of_ne_empty leftEmpty rightEmpty]
    exact concat indent left right

/-- Documents in a row are laid out one after the other. -/
theorem row (indent : Int) (documents : List Doc) :
    Interchangeable meaning width column
      (⟨indent, .doc (documents.foldr Doc.append .empty)⟩ :: rest)
      (documents.map (fun document => ⟨indent, .doc document⟩) ++ rest) := by
  induction documents generalizing column with
  | nil => exact blank indent false
  | cons document documents inductionHypothesis =>
      apply (append_doc indent document _).trans
      exact .cons (fun _ => inductionHypothesis) _ column

end Interchangeable

namespace Build

/-- Objects joined in two parts, with the separator between the parts. -/
def joinInParts (frontLabel backLabel restLabel label : Nat) (separator : Object)
    (front back : List Object) : Except Error (Identified Doc) := do
  let first ← join frontLabel separator front
  let second ← join backLabel separator back
  let rest ← append restLabel separator second.object
  append label first.object rest.object

variable {frontLabel backLabel restLabel label otherLabel : Nat} {object separator : Object}
  {objects front back : List Object} {joined parts : Identified Doc}

theorem ofValue_of_cast (castEq : cast label object = .ok joined) :
    Doc.ofValue object.content = .ok joined.content := by
  rw [← content_cast label, castEq]
  rfl

/-- Whether an object is read as a document is told by its content. -/
theorem exists_cast_iff :
    (∃ document, cast label object = .ok document) ↔
      ∃ document, Doc.ofValue object.content = .ok document := by
  constructor
  · rintro ⟨document, castEq⟩
    exact ⟨document.content, ofValue_of_cast castEq⟩
  · rintro ⟨document, reads⟩
    obtain ⟨identity, castEq⟩ := exists_cast reads label
    exact ⟨_, castEq⟩

/-- The content of a row is that of its documents, put together from the right. -/
theorem exists_content_concat (concatEq : concat label objects = .ok joined) :
    ∃ documents, List.Forall₂ (fun object document => Doc.ofValue object.content = .ok document)
        objects documents ∧
      joined.content = documents.foldr Doc.append .empty := by
  induction objects generalizing joined with
  | nil =>
      cases concatEq
      exact ⟨[], .nil, rfl⟩
  | cons object objects inductionHypothesis =>
      rw [concat_cons] at concatEq
      obtain ⟨rest, restEq, concatEq⟩ := exists_of_bind concatEq
      obtain ⟨first, firstEq, concatEq⟩ := exists_of_bind concatEq
      cases concatEq
      obtain ⟨documents, reads, contentEq⟩ := inductionHypothesis restEq
      refine ⟨first.content :: documents, .cons (ofValue_of_cast firstEq) reads, ?_⟩
      rw [Identified.content_append, contentEq, List.foldr_cons]

theorem append_eq_ok_iff {left : Object} {right : Identified Doc} :
    append label left right.object = .ok joined ↔
      ∃ first, cast label left = .ok first ∧ joined = first.append label right := by
  change (do
    let first ← cast label left
    return first.append label right) = _ ↔ _
  cases cast label left with
  | error cause => simp [Bind.bind, Except.bind]
  | ok first => simp [Bind.bind, Except.bind, pure, Except.pure, eq_comm]

theorem joinInParts_eq_ok_iff :
    joinInParts frontLabel backLabel restLabel label separator front back = .ok parts ↔
      ∃ first second between, join frontLabel separator front = .ok first ∧
        join backLabel separator back = .ok second ∧ cast restLabel separator = .ok between ∧
        parts = first.append label (between.append restLabel second) := by
  constructor
  · intro partsEq
    obtain ⟨first, firstEq, partsEq⟩ := exists_of_bind partsEq
    obtain ⟨second, secondEq, partsEq⟩ := exists_of_bind partsEq
    obtain ⟨rest, restEq, partsEq⟩ := exists_of_bind partsEq
    obtain ⟨between, betweenEq, rfl⟩ := append_eq_ok_iff.mp restEq
    obtain ⟨_, firstRead, rfl⟩ := append_eq_ok_iff.mp partsEq
    cases firstRead
    exact ⟨first, second, between, firstEq, secondEq, betweenEq, rfl⟩
  · rintro ⟨first, second, between, firstEq, secondEq, betweenEq, rfl⟩
    rw [joinInParts, firstEq, secondEq]
    change append restLabel separator second.object >>= _ = _
    rw [append_eq_ok_iff.mpr ⟨between, betweenEq, rfl⟩]
    have firstRead : cast label first.object = .ok first := rfl
    exact append_eq_ok_iff.mpr ⟨first, firstRead, rfl⟩

/-- Whether a row is put together is told by the contents of its objects. -/
theorem exists_row_iff :
    (∃ joined, concat label objects = .ok joined) ↔
      ∀ object ∈ objects, ∃ document, Doc.ofValue object.content = .ok document := by
  rw [exists_concat_iff]
  simp only [exists_cast_iff]

/-- Objects can be joined in two parts exactly if they can be joined at once. -/
theorem exists_joinInParts_iff (frontNotEmpty : front ≠ []) (backNotEmpty : back ≠ []) :
    (∃ joined, join label separator (front ++ back) = .ok joined) ↔
      ∃ parts, joinInParts frontLabel backLabel restLabel otherLabel separator front back =
        .ok parts := by
  calc (∃ joined, join label separator (front ++ back) = .ok joined)
    _ ↔ (∀ object ∈ front.intersperse separator,
            ∃ document, Doc.ofValue object.content = .ok document) ∧
          (∃ document, Doc.ofValue separator.content = .ok document) ∧
          ∀ object ∈ back.intersperse separator,
            ∃ document, Doc.ofValue object.content = .ok document := by
        rw [join, exists_row_iff, intersperse_append frontNotEmpty backNotEmpty,
          List.forall_mem_append, List.forall_mem_cons]
    _ ↔ (∃ first, join frontLabel separator front = .ok first) ∧
          (∃ between, cast restLabel separator = .ok between) ∧
          ∃ second, join backLabel separator back = .ok second := by
        rw [join, join, exists_row_iff, exists_row_iff, exists_cast_iff]
    _ ↔ _ := by
        simp only [joinInParts_eq_ok_iff]
        constructor
        · rintro ⟨⟨first, firstEq⟩, ⟨between, betweenEq⟩, second, secondEq⟩
          exact ⟨_, first, second, between, firstEq, secondEq, betweenEq, rfl⟩
        · rintro ⟨_, first, second, between, firstEq, secondEq, betweenEq, -⟩
          exact ⟨⟨first, firstEq⟩, ⟨between, betweenEq⟩, second, secondEq⟩

/-- What is joined at once and what is joined in two parts are laid out alike. -/
theorem alike_joinInParts (frontNotEmpty : front ≠ []) (backNotEmpty : back ≠ [])
    (joinedEq : join label separator (front ++ back) = .ok joined)
    (partsEq : joinInParts frontLabel backLabel restLabel otherLabel separator front back =
      .ok parts) :
    joined.content.Alike meaning parts.content := by
  obtain ⟨first, second, between, firstEq, secondEq, betweenEq, rfl⟩ :=
    joinInParts_eq_ok_iff.mp partsEq
  rw [join, intersperse_append frontNotEmpty backNotEmpty] at joinedEq
  obtain ⟨whole, wholeReads, wholeContent⟩ := exists_content_concat joinedEq
  obtain ⟨firsts, firstReads, firstContent⟩ := exists_content_concat firstEq
  obtain ⟨seconds, secondReads, secondContent⟩ := exists_content_concat secondEq
  have readOnce : Relator.RightUnique fun (object : Object) (document : Doc) =>
      Doc.ofValue object.content = .ok document :=
    fun _ _ _ reads otherReads => Except.ok.inj (reads.symm.trans otherReads)
  obtain rfl : whole = firsts ++ between.content :: seconds :=
    List.right_unique_forall₂' readOnce wholeReads
      (List.rel_append firstReads (.cons (ofValue_of_cast betweenEq) secondReads))
  intro width column indent rest
  rw [wholeContent, Identified.content_append, Identified.content_append, firstContent,
    secondContent]
  apply (Interchangeable.row indent _).trans
  apply Interchangeable.symm
  apply (Interchangeable.append_doc indent _ _).trans
  apply (Interchangeable.row indent firsts).trans
  rw [List.map_append, List.append_assoc]
  apply Interchangeable.append
  intro column
  apply (Interchangeable.append_doc indent _ _).trans
  exact .cons (fun _ => Interchangeable.row indent seconds) _ column

end Build

/-- Documents that are interchangeable are laid out alike. -/
theorem Doc.Alike.laidAlike {σ : Type} {host : Host σ} (realizes : host.Realizes meaning)
    {first second : Doc} (alike : first.Alike meaning second) : first.LaidAlike host second := by
  have matched : first.MatchedBy .exact meaning (fun _ => True) second := alike.matched
  exact .of_matched realizes matched alike.symm.matched

/-- A row of documents is the chain of those that are no droppable blanks, and it fails for the
cause of the last object that is no document.  Joined objects are a row with the separator at its
odd places.  A separator that is no document is reported exactly if there are at least two objects
and the last one is a document.  Objects may be joined in two parts, with the separator between
them: if one of the two can be done, so can the other, and the documents are laid out alike. -/
theorem rows_are_chains (label : Nat) :
    (∀ objects documents,
      List.Forall₂ (fun object document => Build.cast label object = .ok document) objects
        documents →
      Build.concat label objects =
        .ok (.chain label (documents.filter (·.content ≠ .empty)))) ∧
    (∀ objects cause, Build.concat label objects = .error cause ↔
      ∃ place, Build.Reports label objects place cause) ∧
    ∀ separator objects, ∃ row, Build.Separated separator objects row ∧
      Build.join label separator objects = Build.concat label row ∧
      (∀ cause, Build.cast label separator = .error cause →
        ((Build.join label separator objects = .error cause ∧
            ∃ place, Build.Reports label row (2 * place + 1) cause) ↔
          2 ≤ objects.length ∧ ∃ last document, objects.getLast? = some last ∧
            Build.cast label last = .ok document)) ∧
      ∀ front back, objects = front ++ back → front ≠ [] → back ≠ [] →
        ∀ frontLabel backLabel restLabel otherLabel : Nat,
          ((∃ joined, Build.join label separator objects = .ok joined) ↔
            ∃ parts, Build.joinInParts frontLabel backLabel restLabel otherLabel separator front
              back = .ok parts) ∧
          ∀ joined parts, Build.join label separator objects = .ok joined →
            Build.joinInParts frontLabel backLabel restLabel otherLabel separator front back =
              .ok parts →
            ∀ {σ : Type} (host : Host σ) (meaning : Meaning), host.Realizes meaning →
              joined.content.LaidAlike host parts.content := by
  refine ⟨fun objects documents => Build.concat_of_reads,
    fun objects cause => Build.concat_eq_error_iff, fun separator objects => ?_⟩
  have separated := Build.separated_intersperse separator objects
  refine ⟨objects.intersperse separator, separated, rfl, ?_, ?_⟩
  · intro cause refused
    rw [← separated.reports_odd_iff refused]
    constructor
    · exact And.right
    · rintro ⟨place, reports⟩
      exact ⟨Build.concat_eq_error_iff.mpr ⟨_, reports⟩, place, reports⟩
  · rintro front back rfl frontNotEmpty backNotEmpty frontLabel backLabel restLabel otherLabel
    refine ⟨Build.exists_joinInParts_iff frontNotEmpty backNotEmpty, ?_⟩
    intro joined parts joinedEq partsEq σ host meaning realizes
    exact (Build.alike_joinInParts frontNotEmpty backNotEmpty joinedEq partsEq).laidAlike realizes

/-- The deferred separator breaks the line in front of a space and behind it. -/
theorem Prescribed.of_deferred_separator :
    let kept : Doc := .blank true
    let deferred : Doc := .column ⟨.shared, .function (.custom 0)⟩
    Prescribed .steps 0 0
      [⟨0, .doc (.concat kept (.concat deferred (.concat (.text .space) (.concat deferred kept))))⟩]
      ⟨[.line 0, .text .space, .line 0], none⟩ := by
  intro kept deferred
  have behind : Prescribed .steps 0 0 [⟨0, .doc (.concat (.text .space) (.concat deferred kept))⟩]
      (.after [.text .space] (.after [.line 0] ⟨[], none⟩)) :=
    .concat (.text (.concat (.deferred_steps (by decide) (.blank .done))))
  have inFront : Prescribed .steps 0 0
      [⟨0, .doc (.concat deferred (.concat (.text .space) (.concat deferred kept)))⟩]
      (.after [.line 0] (.after [.text .space] (.after [.line 0] ⟨[], none⟩))) :=
    .concat (.deferred_steps (by decide) behind)
  exact .concat (.blank inFront)

/-- A blank string is dropped from a row and a blank that is kept is not.  A number as a separator
is reported.  Three objects may be joined as one and two, where their separator is deferred. -/
theorem blanks_are_chained :
    let space : Object := ⟨.shared, .str " "⟩
    let kept : Object := ⟨.made 1, .doc (.blank true)⟩
    let number : Object := ⟨.shared, .int 5⟩
    let deferred : Object := ⟨.made 2, .doc (.column ⟨.shared, .function (.custom 0)⟩)⟩
    Build.concat 0 [space, ⟨.shared, .str ""⟩, kept] =
      .ok ⟨.made 0, .concat (.text .space) (.blank true)⟩ ∧
    Build.cast 0 number = .error (.notDocLike (.int 5)) ∧
    Build.join 0 number [kept, space] = .error (.notDocLike (.int 5)) ∧
    Meaning.steps.countingHost.Realizes .steps ∧
    ∃ joined parts, Build.join 0 deferred [kept, space, kept] = .ok joined ∧
      Build.joinInParts 3 4 5 6 deferred [kept] [space, kept] = .ok parts ∧
      joined.content.LaidAlike Meaning.steps.countingHost parts.content ∧
      ∀ document ∈ [joined.content, parts.content],
        (Walk.start 0 [⟨0, .doc document⟩] 0).Emits Meaning.steps.countingHost 0
          ⟨[.line 0, .text .space, .line 0], none⟩ := by
  intro space kept number deferred
  obtain ⟨chains, -, joins⟩ := rows_are_chains 0
  have spaceRead : Build.cast 0 space = .ok ⟨.made 0, .text .space⟩ := rfl
  have keptRead : Build.cast 0 kept = .ok ⟨.made 1, .blank true⟩ := rfl
  have reads : List.Forall₂ (fun object document => Build.cast 0 object = .ok document)
      [space, ⟨.shared, .str ""⟩, kept] [⟨.made 0, .text .space⟩, .empty, ⟨.made 1, .blank true⟩] :=
    .cons spaceRead (.cons rfl (.cons keptRead .nil))
  have refused : Build.cast 0 number = .error (.notDocLike (.int 5)) := rfl
  have chainEq := chains _ _ reads
  obtain ⟨row, -, -, reported, -⟩ := joins number [kept, space]
  obtain ⟨-, -, -, -, inParts⟩ := joins deferred [kept, space, kept]
  obtain ⟨-, alike⟩ := inParts [kept] [space, kept] rfl (by simp) (by simp) 3 4 5 6
  have realizes := Meaning.steps.realizes_countingHost
  have laidAlike := alike _ _ rfl rfl _ _ realizes
  have emits := Prescribed.of_deferred_separator.start_emits realizes 0
  have otherEmits := ((laidAlike 0 0 0).1 _).mp emits
  refine ⟨?_, refused, ?_, realizes, _, _, rfl, rfl, laidAlike,
    List.forall_mem_cons.mpr ⟨emits, List.forall_mem_singleton.mpr otherEmits⟩⟩
  · simpa [Identified.chain, Identified.empty] using chainEq
  · exact ((reported _ refused).mpr ⟨by simp, space, _, rfl, spaceRead⟩).1

end DocLayout
