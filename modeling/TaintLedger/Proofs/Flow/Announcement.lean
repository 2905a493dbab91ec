import TaintLedger.Proofs.Flow.Enrichment
import TaintLedger.Proofs.Text.Cut
import TaintLedger.Proofs.Text.Quoted

/-!
# Announced records

A consolidation that prints flows announces each record as it makes it, on one line of the log.
Nothing in the texts of a record breaks its line: they are sanitized, so what is in them stays
between the mark of the line and its end. Printing changes nothing else, neither the records nor the
other entries of the log.
-/

namespace TaintLedger

/-! ## Logs -/

section Log

variable {level : Int} {e : LogEntry}

theorem renderLog_append (entries more : List LogEntry) :
    renderLog level (entries ++ more) = renderLog level entries ++ renderLog level more := by
  simp [renderLog]

theorem renderLog_flatMap {α : Type} (f : α → List LogEntry) (as : List α) :
    renderLog level (as.flatMap f) = String.join (as.map fun a => renderLog level (f a)) := by
  induction as with
  | nil => rfl
  | cons a as ih => rw [List.flatMap_cons, renderLog_append, ih, List.map_cons, String.join_cons]

theorem renderLog_singleton (h : e.shown level = true) : renderLog level [e] = e.line := by
  simp [renderLog, h]

/-- The line of an entry on which no line ends. -/
theorem LogEntry.line_of_not_mem (h : '\n' ∉ e.text.toList) :
    e.line = e.level.tag ++ e.text ++ "\n" := by
  rw [line, if_neg fun hlast => h (List.mem_of_getLast? hlast)]

end Log

/-! ## The line of a record -/

namespace Record

/-- The line that announces a record, up to its end. -/
def announcement (r : Record) : String :=
  "[INFO] " ++ Text.sanitize r.source.text ++ " -> " ++ Text.sanitize r.sink.text

theorem isLegible_announcement (r : Record) : Text.IsLegible r.announcement := by
  have hsource := Text.isLegible_iff.mp (Text.isLegible_sanitize r.source.text)
  have hsink := Text.isLegible_iff.mp (Text.isLegible_sanitize r.sink.text)
  have hmark : Text.Prints "[INFO] ".toList := .of_all (by decide)
  have harrow : Text.Prints " -> ".toList := .of_all (by decide)
  rw [Text.isLegible_iff, announcement]
  simp only [String.toList_append]
  exact ((hmark.append hsource).append harrow).append hsink

theorem not_mem_announcement (r : Record) : '\n' ∉ r.announcement.toList :=
  (Text.isLegible_iff.mp r.isLegible_announcement).not_mem (by decide) (by decide)

end Record

/-! ## The course of a consolidation -/

/-- What happens in the course of a consolidation: an entry is written, or a record is made. -/
inductive Event where
  | entry (e : LogEntry)
  | record (r : Record)

namespace Event

def entry? : Event → Option LogEntry
  | .entry e => some e
  | .record _ => none

def record? : Event → Option Record
  | .entry _ => none
  | .record r => some r

/-- What an event leaves in the log: the entry, or the announcement of the record. -/
def entries (c : Consolidator) : Event → List LogEntry
  | .entry e => [e]
  | .record r => (c.announce r).entries

/-- Where flows are not printed, only entries are left. -/
theorem flatMap_entries {c : Consolidator} (h : c.printFlows = false) (course : List Event) :
    course.flatMap (entries c) = course.filterMap entry? := by
  rw [List.filterMap_eq_flatMap_toList]
  refine List.flatMap_congr fun event _ => ?_
  cases event with
  | entry e => rfl
  | record r => simp [entries, entry?, Consolidator.announce, h]

end Event

namespace Consolidator

variable {α β : Type} {c : Consolidator}

/-- The same consolidation with flows printed or not. -/
def printing (c : Consolidator) (print : Bool) : Consolidator := { c with printFlows := print }

/-- In the course of a computation with result `a`, some records are made. Whether flows are printed
or not, the course is the same, and each record is announced when it is made. -/
def Emits (c : Consolidator) (x : Bool → Logged α) (a : α) (records : List Record) : Prop :=
  ∃ course : List Event, course.filterMap Event.record? = records ∧
    ∀ print, x print = ⟨a, course.flatMap (Event.entries (c.printing print))⟩

namespace Emits

variable {x : Bool → Logged α} {a : α} {rs : List Record}

/-- A computation that does not depend on printing emits nothing. -/
theorem nothing (x : Logged α) : Emits c (fun _ => x) x.val [] := by
  refine ⟨x.entries.map .entry, ?_, fun print => ?_⟩
  · rw [List.filterMap_map]
    exact List.filterMap_eq_nil_iff.mpr fun _ _ => rfl
  · rw [List.flatMap_map]
    simp [Event.entries]

theorem announce (c : Consolidator) (r : Record) :
    Emits c (fun print => (c.printing print).announce r) () [r] := by
  refine ⟨[.record r], rfl, fun print => ?_⟩
  rw [List.flatMap_singleton]
  rfl

theorem bind {f : Bool → α → Logged β} {b : β} {ss : List Record} (hx : Emits c x a rs)
    (hf : Emits c (fun print => f print a) b ss) :
    Emits c (fun print => x print >>= f print) b (rs ++ ss) := by
  obtain ⟨first, rfl, hfirst⟩ := hx
  obtain ⟨second, rfl, hsecond⟩ := hf
  refine ⟨first ++ second, List.filterMap_append, fun print => ?_⟩
  have hnext : f print a = ⟨b, second.flatMap (Event.entries (c.printing print))⟩ := hsecond print
  change Logged.mk (f print (x print).val).val
    ((x print).entries ++ (f print (x print).val).entries) = _
  rw [hfirst, hnext, List.flatMap_append]

theorem map (hx : Emits c x a rs) (g : α → β) :
    Emits c (fun print => x print >>= fun a => pure (g a)) (g a) rs := by
  have hpure : Emits c (fun _ => pure (g a)) (g a) [] := nothing (pure (g a))
  simpa using hx.bind (f := fun _ a => pure (g a)) hpure

/-- From what one computation of a list makes to what all of them make. -/
theorem collect {f : Bool → α → Logged (List β)} {made : β → Record}
    (h : ∀ a, ∃ bs, Emits c (fun print => f print a) bs (bs.map made)) (as : List α) :
    ∃ bss, Emits c (fun print => Logged.collect (f print) as) bss (bss.flatten.map made) := by
  induction as with
  | nil => exact ⟨[], nothing (pure [])⟩
  | cons a as ih =>
      obtain ⟨bs, hbs⟩ := h a
      obtain ⟨bss, hbss⟩ := ih
      refine ⟨bs :: bss, ?_⟩
      rw [List.flatten_cons, List.map_append]
      exact hbs.bind (hbss.map (bs :: ·))

theorem collectSome {f : Bool → α → Logged (Option β)} {made : β → Record}
    (h : ∀ a, ∃ b : Option β, Emits c (fun print => f print a) b (b.toList.map made))
    (as : List α) :
    ∃ bs, Emits c (fun print => Logged.collectSome (f print) as) bs (bs.map made) := by
  induction as with
  | nil => exact ⟨[], nothing (pure [])⟩
  | cons a as ih =>
      obtain ⟨b, hb⟩ := h a
      obtain ⟨bs, hbs⟩ := ih
      refine ⟨b.toList ++ bs, ?_⟩
      rw [List.map_append]
      exact hb.bind (hbs.map (b.toList ++ ·))

end Emits

/-! ## What each pass emits -/

variable (c) (o : Oracle)

theorem emits_joinSource (sink : Site) (e : Endpoint) (raw : RawSource) :
    ∃ j : Option Joined, Emits c (fun print => (c.printing print).joinSource o sink e raw) j
      (j.toList.map (·.record)) := by
  cases hs : callSite? raw.source with
  | none =>
      simp only [joinSource, hs]
      exact ⟨none, .nothing (pure none)⟩
  | some s =>
      -- Of the joining only the announcement depends on printing.
      have hjoin : Emits c (fun print => (c.printing print).join o s.1 raw.path e) _ [] :=
        .nothing (c.join o s.1 raw.path e)
      simp only [joinSource, hs]
      cases hval : (c.join o s.1 raw.path e).val with
      | error why =>
          rw [hval] at hjoin
          exact ⟨none, hjoin.bind (.nothing _)⟩
      | ok r =>
          rw [hval] at hjoin
          have hmade := (Emits.announce c r).map fun _ => some (Joined.mk s.1.id sink.id r)
          exact ⟨some ⟨s.1.id, sink.id, r⟩, hjoin.bind hmade⟩

theorem emits_joinSink (raw : RawSink) :
    ∃ js : List Joined, Emits c (fun print => (c.printing print).joinSink o raw) js
      (js.map (·.record)) := by
  cases hk : callSite? raw.sink with
  | none =>
      simp only [joinSink, hk]
      exact ⟨[], .nothing (pure [])⟩
  | some k =>
      have hend : Emits c (fun print => (c.printing print).sinkEndpoint o k.1 k.2) _ [] :=
        .nothing (c.sinkEndpoint o k.1 k.2)
      simp only [joinSink, hk]
      cases hval : (c.sinkEndpoint o k.1 k.2).val with
      | error why =>
          rw [hval] at hend
          exact ⟨[], hend.bind (.nothing _)⟩
      | ok e =>
          rw [hval] at hend
          obtain ⟨js, hjs⟩ := Emits.collectSome (c.emits_joinSource o k.1 e) raw.sources
          exact ⟨js, hend.bind hjs⟩

theorem emits_joinAll (raw : RawResults) :
    ∃ js : List Joined, Emits c (fun print => (c.printing print).joinAll o raw) js
      (js.map (·.record)) := by
  obtain ⟨jss, hjss⟩ := Emits.collect (c.emits_joinSink o) raw
  exact ⟨jss.flatten, hjss.map List.flatten⟩

theorem emits_alone (what : String) (make : Endpoint → Record) (s : Site × Value) :
    ∃ r : Option Record, Emits c (fun print => (c.printing print).alone o what make s) r
      (r.toList.map id) := by
  cases he : plainEndpoint o s.1 s.2 with
  | error why =>
      simp only [alone, he]
      exact ⟨none, .nothing _⟩
  | ok e =>
      simp only [alone, he]
      exact ⟨some (make e), (Emits.announce c (make e)).map fun _ => some (make e)⟩

theorem emits_lonelySources (seen : List StmtId) (sources : List (Option Site)) :
    ∃ rs, Emits c (fun print => (c.printing print).lonelySources o seen sources) rs rs := by
  obtain ⟨rs, hrs⟩ := Emits.collectSome
    (c.emits_alone o "source" fun e => { source := e, sink := .noSink })
    ((pending seen sources).filter fun s => !c.resolver.vocabulary.isSuppressed s.2.signature)
  rw [List.map_id] at hrs
  exact ⟨rs, hrs⟩

theorem emits_lonelySinks (seen : List StmtId) (sinks : List (Option Site)) :
    ∃ rs, Emits c (fun print => (c.printing print).lonelySinks o seen sinks) rs rs := by
  obtain ⟨rs, hrs⟩ := Emits.collectSome
    (c.emits_alone o "sink" fun e => { source := .noSource, sink := e }) (pending seen sinks)
  rw [List.map_id] at hrs
  exact ⟨rs, hrs⟩

theorem emits_consolidate (raw : RawResults) (collected : Collected) :
    ∃ rs, Emits c (fun print => (c.printing print).consolidate o raw collected) rs rs := by
  obtain ⟨joined, hjoined⟩ := c.emits_joinAll o raw
  obtain ⟨sources, hsources⟩ :=
    c.emits_lonelySources o (joined.map (·.source)) collected.sources
  obtain ⟨sinks, hsinks⟩ := c.emits_lonelySinks o (joined.map (·.sink)) collected.sinks
  have hall : Emits c (fun print => (c.printing print).consolidate o raw collected)
      (joined.map (·.record) ++ sources ++ sinks)
      (joined.map (·.record) ++ (sources ++ (sinks ++ []))) :=
    hjoined.bind (hsources.bind (hsinks.bind (.nothing _)))
  rw [List.append_nil, ← List.append_assoc] at hall
  exact ⟨_, hall⟩

/-! ## What is printed -/

/-- Where flows are printed and the level lets it through, a record is announced on its line. -/
theorem renderLog_announce {c : Consolidator} {level : Int} (hprint : c.printFlows = true)
    (hlevel : LogLevel.info.number ≤ level) (r : Record) :
    renderLog level (c.announce r).entries = r.announcement ++ "\n" := by
  let entry : LogEntry := ⟨.info, quotePair r.source.text r.sink.text⟩
  have hentries : (c.announce r).entries = [entry] := by simp [announce, hprint, entry]
  have hshown : entry.shown level = true := decide_eq_true hlevel
  have hline : entry.level.tag ++ entry.text = r.announcement := by
    simp [LogLevel.tag, quotePair, Record.announcement, String.append_assoc, entry]
  have hend : '\n' ∉ entry.text.toList := by
    intro hmem
    refine r.not_mem_announcement ?_
    rw [← hline, String.toList_append]
    exact List.mem_append_right _ hmem
  rw [hentries, renderLog_singleton hshown, LogEntry.line_of_not_mem hend, hline]

/-- Printed flows. What is sanitized is legible, whatever the text, and texts of characters that
differ still do so when they are sanitized. A consolidation that prints flows announces each record
when it makes it: its log is that of the same consolidation without printing, with the announcements
of the records, in their order, in between. If the level shows them, all announcements together are
one line for each record, in order, and these lines are legible. -/
theorem consolidate_announced (raw : RawResults) (collected : Collected) (level : Int)
    (hprint : c.printFlows = true) (hlevel : LogLevel.info.number ≤ level) :
    let records := (c.consolidate o raw collected).val
    let announced := renderLog level (records.flatMap fun r => (c.announce r).entries)
    (∀ s : String, Text.IsLegible (Text.sanitize s)) ∧
    Function.Injective (fun s : String => Text.sanitize (Text.ofUnicode s)) ∧
    (∃ course : List Event,
      course.filterMap Event.record? = records ∧
      course.filterMap Event.entry? = ((c.printing false).consolidate o raw collected).entries ∧
      course.flatMap (Event.entries c) = (c.consolidate o raw collected).entries) ∧
    announced = String.join (records.map fun r => r.announcement ++ "\n") ∧
    Text.splitOn '\n' announced.toList = (records.map fun r => r.announcement.toList) ++ [[]] ∧
    ∀ r ∈ records, Text.IsLegible r.announcement := by
  intro records announced
  have hjoin : announced = String.join (records.map fun r => r.announcement ++ "\n") := by
    simp only [announced, renderLog_flatMap, renderLog_announce hprint hlevel]
  refine ⟨Text.isLegible_sanitize, Text.sanitize_ofUnicode_injective, ?_, hjoin, ?_,
    fun r _ => r.isLegible_announcement⟩
  · obtain ⟨rs, course, hmade, hrun⟩ := c.emits_consolidate o raw collected
    have hself : c.printing true = c := by rw [printing, ← hprint]
    have hprinted : c.consolidate o raw collected = ⟨rs, course.flatMap (Event.entries c)⟩ := by
      simpa only [hself] using hrun true
    have hbare : (c.printing false).consolidate o raw collected = ⟨rs, _⟩ := hrun false
    refine ⟨course, ?_, ?_, ?_⟩
    · rw [hmade, show records = rs from congrArg Logged.val hprinted]
    · rw [hbare, Event.flatMap_entries rfl]
    · rw [hprinted]
  · have hlines : announced.toList =
        (records.map fun r => r.announcement.toList).flatMap (· ++ ['\n']) := by
      rw [hjoin, String.toList_join, List.flatMap_map, List.flatMap_map]
      simp
    rw [hlines]
    refine Text.splitOn_flatMap_concat fun line hline => ?_
    obtain ⟨r, -, rfl⟩ := List.mem_map.mp hline
    exact r.not_mem_announcement

/-- The flow of `Method.sending` into a launch whose intent imitates the end of a line and a command
to the terminal, and a source in no flow with a line end in its name: two records and two lines. -/
theorem consolidate_announced_imitation :
    let c := (launching.enrichedBy (some fun _ _ _ =>
      pure (.ok (some { action := "VIEW]\n[INFO] a -> b", data := "\x1b[2J" })))).printing true
    let beside := Stmt.call (.invoke "Net.peek()\r\n" none [])
    let records := (c.consolidate .sending .sent { sources := [some ⟨.inBody 0 2, beside⟩] }).val
    records.length = 2 ∧
    renderLog 3 (records.flatMap fun r => (c.announce r).entries) =
      "[INFO] Net.read() -> <App: void open(String)>" ++
      "[action=VIEW]\\n[INFO] a -> b data=\\x1b[2J]\n" ++
      "[INFO] Net.peek()\\r\\n -> NO_SENSITIVE_SINK\n" := by
  intro c beside records
  obtain ⟨-, -, -, htext, -, -⟩ := c.consolidate_announced .sending .sent
    { sources := [some ⟨.inBody 0 2, beside⟩] } 3 rfl (by decide)
  exact ⟨by decide +kernel, htext.trans (by decide +kernel)⟩

end Consolidator

end TaintLedger
