import Mathlib.Data.List.Nodup
import Provisioning.Event.Json
import Provisioning.Proofs.Json.RoundTrip

/-!
# Events read back

Every event is written as one line of JSON from which it can be read, whatever its texts are and
whatever is absent.  An event is put together from the entries that it looks up by name: those of
its kind stand under names of their own, and none is given twice.

* `Event.fits_toJson` : the JSON of an event is such as can be read;
* `Happening.ofDetails?_of_lookup` : what has happened is found again by its tag and its details;
* `Event.ofText?_render` : an event is read back from its text;
* `Event.visible_render` : that text holds no line break.
-/

namespace Provisioning

open Json (Value)

/-! ### Events -/

/-- Whether the numbers of a happening are such as can be counted and returned. -/
def Happening.InRange : Happening → Prop
  | taskCompiled _ n | hostStarted n _ | commandCached _ n _ _ | commandStarted _ n _ _ =>
    n < Nat.pow 2 64
  | hostFinished executed cached invalidated _ =>
    executed < Nat.pow 2 64 ∧ cached < Nat.pow 2 64 ∧ invalidated < Nat.pow 2 64
  | commandFinished _ index _ exitCode millis _ =>
    index < Nat.pow 2 64 ∧ (-Int.pow 2 31 ≤ exitCode ∧ exitCode < Int.pow 2 31) ∧
      millis < Nat.pow 2 64
  | commandPrinted .. | cacheInvalidated .. | logFailed .. => True

/-- The same of an event. -/
def Event.InRange (e : Event) : Prop := e.what.InRange

theorem fits_countValue {n : Nat} (h : n < Nat.pow 2 64) (d : Nat) : (countValue n).Fits d := by
  have hpow : Int.pow 2 64 = (Nat.pow 2 64 : Nat) ∧ -Int.pow 2 63 ≤ 0 := by decide
  exact .int d (by omega) (by omega)

theorem fits_optionalEntry (name : String) (s? : Option String) (d : Nat) :
    ∀ e ∈ optionalEntry name s?, e.2.Fits d := by
  cases s? with
  | none => simp [optionalEntry]
  | some s => simpa [optionalEntry] using Value.Fits.str d s

/-- No detail stands deeper than in one array. -/
theorem Happening.fits_details {what : Happening} (h : what.InRange) (d : Nat) :
    ∀ e ∈ what.details, e.2.Fits (d + 1) := by
  cases what with
  | taskCompiled task n => simp [details, fits_countValue h, Value.Fits.str]
  | hostStarted n dryRun => simp [details, fits_countValue h, Value.Fits.bool]
  | hostFinished executed cached invalidated error? =>
    obtain ⟨he, hc, hi⟩ := h
    refine List.forall_mem_append.2 ⟨?_, fits_optionalEntry _ _ _⟩
    simp [fits_countValue he, fits_countValue hc, fits_countValue hi]
  | commandCached task index sum label | commandStarted task index sum label =>
    simp [details, fits_countValue h, Value.Fits.str]
  | commandFinished task index sum exitCode millis error? =>
    obtain ⟨hi, ⟨hleast, hbound⟩, hm⟩ := h
    have hpow : -Int.pow 2 63 ≤ -Int.pow 2 31 ∧ Int.pow 2 31 ≤ Int.pow 2 64 := by decide
    have hexit : (Value.int exitCode).Fits (d + 1) := .int _ (by omega) (by omega)
    refine List.forall_mem_append.2 ⟨?_, fits_optionalEntry _ _ _⟩
    simp [fits_countValue hi, fits_countValue hm, Value.Fits.str, hexit]
  | commandPrinted task sum origin line => simp [details, Value.Fits.str]
  | cacheInvalidated task sums =>
    have hsums : (Value.arr (sums.map .str)).Fits (d + 1) :=
      .arr fun v hv => by
        obtain ⟨s, -, rfl⟩ := List.mem_map.1 hv
        exact .str d s
    simp [details, Value.Fits.str, hsums]
  | logFailed task sum error => simp [details, Value.Fits.str]

/-- An event can be written as JSON that can be read. -/
theorem Event.fits_toJson {e : Event} (h : e.InRange) : e.toJson.Fits Json.depthLimit := by
  refine .obj (List.forall_mem_cons.2 ⟨.str _ _, List.forall_mem_append.2
    ⟨fits_optionalEntry _ _ _, List.forall_mem_cons.2 ⟨.str _ _, ?_⟩⟩⟩)
  exact Happening.fits_details h _

section lookup

variable {es : List (String × Value)} {name : String}

theorem textAt?_of_lookup {s : String} (h : es.lookup name = some (.str s)) :
    textAt? es name = some s := by rw [textAt?, h]

theorem optionalTextAt?_of_lookup {s? : Option String} (h : es.lookup name = s?.map .str) :
    optionalTextAt? es name = some s? := by
  rw [optionalTextAt?, h]
  cases s? <;> rfl

theorem intAt?_of_lookup {n least bound : Int} (h : es.lookup name = some (.int n))
    (hleast : least ≤ n) (hbound : n < bound) : intAt? es least bound name = some n := by
  simp [intAt?, h, hleast, hbound]

theorem countAt?_of_lookup {n : Nat} (h : es.lookup name = some (countValue n))
    (hn : n < Nat.pow 2 64) : countAt? es name = some n := by
  have hpow : Int.pow 2 64 = (Nat.pow 2 64 : Nat) := rfl
  have hint : intAt? es 0 (Int.pow 2 64) name = some (n : Int) :=
    intAt?_of_lookup h (by omega) (by omega)
  rw [countAt?, hint, Option.map_some, Int.toNat_natCast]

theorem boolAt?_of_lookup {b : Bool} (h : es.lookup name = some (.bool b)) :
    boolAt? es name = some b := by rw [boolAt?, h]

theorem originAt?_of_lookup {origin : Origin} (h : es.lookup name = some (.str origin.word)) :
    originAt? es name = some origin := by
  rw [originAt?, h]
  cases origin <;> rfl

theorem textsAt?_of_lookup {ts : List String} (h : es.lookup name = some (.arr (ts.map .str))) :
    textsAt? es name = some ts := by
  have hmap : (ts.map Value.str).mapM text? = some ts := by
    clear h
    induction ts with
    | nil => rfl
    | cons t ts ih => simp [List.mapM_cons, text?, ih]
  rw [textsAt?, h]
  exact hmap

end lookup

theorem lookup_optionalEntry (name : String) (s? : Option String) :
    (optionalEntry name s?).lookup name = s?.map .str := by
  cases s? <;> simp [optionalEntry]

/-- A happening is read back from its tag and details, whatever else there is. -/
theorem Happening.ofDetails?_of_lookup {es : List (String × Value)} {what : Happening}
    (hr : what.InRange)
    (h : ∀ name ∈ detailNames what.tag, es.lookup name = what.details.lookup name) :
    ofDetails? es what.tag = some what := by
  cases what with
  | taskCompiled task n =>
    obtain ⟨htask, hn⟩ : es.lookup "task" = some (.str task) ∧
        es.lookup "commands" = some (countValue n) := by
      simpa [tag, detailNames, details, List.lookup_cons] using h
    simp [ofDetails?, tag, textAt?_of_lookup htask, countAt?_of_lookup hn hr]
  | hostStarted n dryRun =>
    obtain ⟨hn, hdry⟩ : es.lookup "tasks" = some (countValue n) ∧
        es.lookup "dry_run" = some (.bool dryRun) := by
      simpa [tag, detailNames, details, List.lookup_cons] using h
    simp [ofDetails?, tag, countAt?_of_lookup hn hr, boolAt?_of_lookup hdry]
  | hostFinished executed cached invalidated error? =>
    obtain ⟨hexecuted, hcached, hinvalidated, herror⟩ :
        es.lookup "executed" = some (countValue executed) ∧
        es.lookup "cached" = some (countValue cached) ∧
        es.lookup "invalidated" = some (countValue invalidated) ∧
        es.lookup "error" = error?.map .str := by
      simpa [tag, detailNames, details, List.lookup_cons, lookup_optionalEntry] using h
    obtain ⟨he, hc, hi⟩ := hr
    simp [ofDetails?, tag, countAt?_of_lookup hexecuted he, countAt?_of_lookup hcached hc,
      countAt?_of_lookup hinvalidated hi, optionalTextAt?_of_lookup herror]
  | commandCached task index sum label | commandStarted task index sum label =>
    obtain ⟨htask, hindex, hsum, hlabel⟩ : es.lookup "task" = some (.str task) ∧
        es.lookup "index" = some (countValue index) ∧
        es.lookup "checksum" = some (.str sum) ∧ es.lookup "logging" = some (.str label) := by
      simpa [tag, detailNames, details, List.lookup_cons] using h
    simp [ofDetails?, tag, textAt?_of_lookup htask, countAt?_of_lookup hindex hr,
      textAt?_of_lookup hsum, textAt?_of_lookup hlabel]
  | commandFinished task index sum exitCode millis error? =>
    obtain ⟨htask, hindex, hsum, hexit, hmillis, herror⟩ :
        es.lookup "task" = some (.str task) ∧ es.lookup "index" = some (countValue index) ∧
        es.lookup "checksum" = some (.str sum) ∧ es.lookup "exit_code" = some (.int exitCode) ∧
        es.lookup "duration_ms" = some (countValue millis) ∧
        es.lookup "error" = error?.map .str := by
      simpa [tag, detailNames, details, List.lookup_cons, lookup_optionalEntry] using h
    obtain ⟨hi, ⟨hleast, hbound⟩, hm⟩ := hr
    simp only [ofDetails?, tag, textAt?_of_lookup htask, countAt?_of_lookup hindex hi,
      textAt?_of_lookup hsum, intAt?_of_lookup hexit hleast hbound,
      countAt?_of_lookup hmillis hm, optionalTextAt?_of_lookup herror, Option.bind_eq_bind,
      Option.bind_some, Option.pure_def]
  | commandPrinted task sum origin line =>
    obtain ⟨htask, hsum, horigin, hline⟩ : es.lookup "task" = some (.str task) ∧
        es.lookup "checksum" = some (.str sum) ∧
        es.lookup "stream" = some (.str origin.word) ∧ es.lookup "line" = some (.str line) := by
      simpa [tag, detailNames, details, List.lookup_cons] using h
    simp [ofDetails?, tag, textAt?_of_lookup htask, textAt?_of_lookup hsum,
      originAt?_of_lookup horigin, textAt?_of_lookup hline]
  | cacheInvalidated task sums =>
    obtain ⟨htask, hsums⟩ : es.lookup "task" = some (.str task) ∧
        es.lookup "checksums" = some (.arr (sums.map .str)) := by
      simpa [tag, detailNames, details, List.lookup_cons] using h
    simp [ofDetails?, tag, textAt?_of_lookup htask, textsAt?_of_lookup hsums]
  | logFailed task sum error =>
    obtain ⟨htask, hsum, herror⟩ : es.lookup "task" = some (.str task) ∧
        es.lookup "checksum" = some (.str sum) ∧ es.lookup "error" = some (.str error) := by
      simpa [tag, detailNames, details, List.lookup_cons] using h
    simp [ofDetails?, tag, textAt?_of_lookup htask, textAt?_of_lookup hsum,
      textAt?_of_lookup herror]

/-! ### Whole events -/

theorem onceEach_of_nodup {es : List (String × Value)} (h : (es.map Prod.fst).Nodup)
    (names : List String) : onceEach names es := by
  refine List.all_eq_true.2 fun name _ => ?_
  have hcount := List.nodup_iff_count_le_one.1 h name
  rw [List.count, List.countP_map, List.countP_eq_length_filter] at hcount
  exact decide_eq_true hcount

/-- No name is given twice. -/
theorem Event.nodup_entries (e : Event) : (e.entries.map Prod.fst).Nodup := by
  obtain ⟨time, host?, what⟩ := e
  cases what with
  | hostFinished _ _ _ error? | commandFinished _ _ _ _ _ error? =>
    cases host? <;> cases error? <;> simp [entries, optionalEntry, Happening.details]
  | _ => cases host? <;> simp [entries, optionalEntry, Happening.details]

/-- The details of an event are told apart from its time, its host and its tag. -/
theorem Event.lookup_entries {e : Event} {name : String} (h : name ∈ detailNames e.what.tag) :
    e.entries.lookup name = e.what.details.lookup name := by
  have hother : name ≠ "ts" ∧ name ≠ "host" ∧ name ≠ "event" := by
    refine ⟨?_, ?_, ?_⟩ <;>
    · rintro rfl
      cases hw : e.what <;> simp [hw, Happening.tag, detailNames] at h
  obtain ⟨hts, hhost, hevent⟩ := hother
  rw [entries, List.lookup_cons, beq_false_of_ne hts, List.lookup_append, List.lookup_cons,
    beq_false_of_ne hevent]
  cases e.host? <;> simp [optionalEntry, List.lookup_cons, beq_false_of_ne hhost]

theorem Happening.tag_mem_tags (what : Happening) : what.tag ∈ tags := by
  cases what <;> simp [tag, tags]

theorem Happening.lookup_host (what : Happening) : what.details.lookup "host" = none := by
  cases what with
  | hostFinished _ _ _ error? | commandFinished _ _ _ _ _ error? =>
    cases error? <;> simp [details, optionalEntry, List.lookup_cons]
  | _ => simp [details, List.lookup_cons]

/-- An event is read back from its JSON. -/
theorem Event.ofJson?_toJson {e : Event} (h : e.InRange) : Event.ofJson? e.toJson = some e := by
  have htime : textAt? e.entries "ts" = some e.time := textAt?_of_lookup (by simp [entries])
  have hhost : optionalTextAt? e.entries "host" = some e.host? := by
    refine optionalTextAt?_of_lookup ?_
    cases hh : e.host? <;> simp [entries, hh, optionalEntry, List.lookup_cons, e.what.lookup_host]
  have htag : tagAt? e.entries "event" = some e.what.tag := by
    have hlookup : e.entries.lookup "event" = some (.str e.what.tag) := by
      cases hh : e.host? <;> simp [entries, hh, optionalEntry, List.lookup_cons]
    simp [tagAt?, hlookup, e.what.tag_mem_tags]
  have hwhat : Happening.ofDetails? e.entries e.what.tag = some e.what :=
    Happening.ofDetails?_of_lookup h fun _ => lookup_entries
  have honce := onceEach_of_nodup e.nodup_entries
    ("ts" :: "host" :: "event" :: detailNames e.what.tag)
  simp [ofJson?, toJson, htag, honce, htime, hhost, hwhat]

/-- An event is read back from its text. -/
theorem Event.ofText?_render {e : Event} (h : e.InRange) : Event.ofText? e.render = some e := by
  rw [ofText?, render, (fits_toJson h).ofText?_render, Option.bind_some, ofJson?_toJson h]

/-- The text of an event is a single line. -/
theorem Event.visible_render {e : Event} (h : e.InRange) : Json.Visible e.render.toList := by
  rw [render, Value.render, String.toList_ofList]
  exact (fits_toJson h).visible

end Provisioning
