import Provisioning.Package
import Provisioning.Proofs.Template.Splice

/-!
# The inputs of a command

What an author writes in a command stands in its inputs.  Expanding a command expands its inputs,
each as a template by itself, but for the permission bits and the owner of a file or directory:
these stay as they are written.  Permission bits with a placeholder are refused afterwards, since
they are no octal digits.  An owner with a placeholder is not, and reaches the script as it is
written.

* `Command.mapInputs`, `Command.input?_mapInputs` : a command with its inputs changed;
* `Command.render_eq` : expanding changes the inputs that are templates, each by itself;
* `Template.Spent.of_render` : what is expanded has no placeholder left, unless it is final;
* `Command.inputs_rendered` : when expanding succeeds, and what is expanded then.
-/

namespace Provisioning

/-! ### What is left of a template -/

namespace Template

variable {reference : Reference} {template : String}

/-- Whether a text is that of a template whose rounds have come to an end: nothing but what is final
still opens a placeholder. -/
def Spent (reference : Reference) (rounds : Nat) (template text : String) : Prop :=
  ∃ ps, expand reference template rounds [.text template.toList] = .ok (some ps) ∧
    (∀ p ∈ ps, p.isPending = false) ∧ text = String.ofList (ps.flatMap Piece.chars)

theorem not_pending_of_expand {n : Nat} {ps made : List Piece}
    (h : expand reference template n ps = .ok (some made)) : ∀ p ∈ made, p.isPending = false := by
  induction n generalizing ps with
  | zero =>
    rw [expand] at h
    cases hany : ps.any Piece.isPending with
    | true => simp [hany] at h
    | false =>
      obtain rfl : ps = made := by simpa [hany] using h
      exact isPending_of_not_any hany
  | succ n ih =>
    rw [expand] at h
    cases hany : ps.any Piece.isPending with
    | true =>
      rw [if_pos hany] at h
      cases hnext : expandOnce reference template ps with
      | error e => simp [hnext, bind, Except.bind] at h
      | ok next =>
        rw [hnext] at h
        exact ih h
    | false =>
      obtain rfl : ps = made := by simpa [hany] using h
      exact isPending_of_not_any hany

theorem Spent.of_render {rounds : Nat} {text : String}
    (h : render reference rounds template = .ok text) : Spent reference rounds template text := by
  rw [render] at h
  split at h
  · cases h
  · cases h
  · next ps hps => exact ⟨ps, hps, not_pending_of_expand hps, (Except.ok.inj h).symm⟩

end Template

/-! ### Inputs -/

namespace Command

/-- A place in a command for a text of the author. -/
inductive Input where
  /-- The script of a command that is nothing else. -/
  | text
  /-- Where a file or directory goes. -/
  | path
  /-- What a file holds. -/
  | content
  /-- The permission bits. -/
  | mode
  /-- Who owns a file or directory. -/
  | owner
  /-- The name of a package. -/
  | package (index : Nat)
  /-- As whom a script is run. -/
  | user
  /-- The script that is run as somebody else. -/
  | run
deriving DecidableEq

/-- Whether an input is a template. -/
def Input.isTemplate : Input → Bool
  | mode | owner => false
  | _ => true

/-- What an input of a command holds, if the command has it. -/
def input? : Command → Input → Option String
  | shell text, .text => some text
  | writeFile file, .path => some file.path
  | writeFile file, .content => some file.content
  | writeFile file, .mode => file.mode?
  | writeFile file, .owner => file.owner?
  | mkdir dir, .path => some dir.path
  | mkdir dir, .mode => dir.mode?
  | mkdir dir, .owner => dir.owner?
  | installPackages packages, .package index => packages[index]?
  | asUser user _, .user => some user
  | asUser _ run, .run => some run
  | _, _ => none

/-- A command with what its inputs hold changed. -/
def mapInputs (f : Input → String → String) : Command → Command
  | shell text => shell (f .text text)
  | writeFile file =>
    writeFile ⟨f .path file.path, f .content file.content, file.mode?.map (f .mode),
      file.owner?.map (f .owner)⟩
  | mkdir dir => mkdir ⟨f .path dir.path, dir.mode?.map (f .mode), dir.owner?.map (f .owner)⟩
  | installPackages packages => installPackages (packages.mapIdx fun index => f (.package index))
  | updatePackages => updatePackages
  | asUser user run => asUser (f .user user) (f .run run)
  | fixed action => fixed action

@[simp] theorem input?_mapInputs (f : Input → String → String) (command : Command) (i : Input) :
    (command.mapInputs f).input? i = (command.input? i).map (f i) := by
  cases command <;> cases i <;> simp [mapInputs, input?]

/-! ### Expanding them -/

/-- The inputs of a command that are expanded. -/
def inputs : Command → List String
  | shell text => [text]
  | writeFile file => [file.path, file.content]
  | mkdir dir => [dir.path]
  | installPackages packages => packages
  | updatePackages => []
  | asUser user run => [user, run]
  | fixed _ => []

theorem mem_inputs {command : Command} {text : String} : text ∈ command.inputs ↔
    ∃ i : Input, i.isTemplate ∧ command.input? i = some text := by
  constructor
  · intro h
    cases command with
    | shell text' => exact ⟨.text, rfl, by simpa [inputs, input?, eq_comm] using h⟩
    | writeFile file =>
      rw [inputs, List.mem_cons, List.mem_singleton] at h
      rcases h with rfl | rfl
      · exact ⟨.path, rfl, rfl⟩
      · exact ⟨.content, rfl, rfl⟩
    | mkdir dir => exact ⟨.path, rfl, by simpa [inputs, input?, eq_comm] using h⟩
    | installPackages packages =>
      obtain ⟨index, hindex⟩ := List.mem_iff_getElem?.1 h
      exact ⟨.package index, rfl, hindex⟩
    | updatePackages => cases h
    | asUser user run =>
      rw [inputs, List.mem_cons, List.mem_singleton] at h
      rcases h with rfl | rfl
      · exact ⟨.user, rfl, rfl⟩
      · exact ⟨.run, rfl, rfl⟩
    | fixed action => cases h
  · rintro ⟨i, hi, htext⟩
    cases command <;> cases i <;> simp_all [Input.isTemplate, input?, inputs]
    exact List.mem_of_getElem? htext

section

variable {render render' : String → Except Template.Error String}

theorem renderInput_congr {input : String} (h : render input = render' input) :
    renderInput render input = renderInput render' input := by
  rw [renderInput, renderInput, h]

theorem renderInputs_congr {inputs : List String}
    (h : ∀ input ∈ inputs, render input = render' input) :
    renderInputs render inputs = renderInputs render' inputs := by
  induction inputs with
  | nil => rfl
  | cons input inputs ih =>
    obtain ⟨hinput, hinputs⟩ := List.forall_mem_cons.1 h
    rw [renderInputs, renderInputs, renderInput_congr hinput, ih hinputs]

theorem renderPair_congr {a b : String} (ha : render a = render' a)
    (hb : render b = render' b) : renderPair render a b = renderPair render' a b := by
  rw [renderPair, renderPair, renderInput_congr ha, renderInput_congr hb]

/-- A command is expanded by its inputs. -/
theorem render_congr {command : Command}
    (h : ∀ input ∈ command.inputs, render input = render' input) :
    command.render render = command.render render' := by
  cases command with
  | shell text => rw [Command.render, Command.render, renderInput_congr (h _ (by simp [inputs]))]
  | writeFile file =>
    rw [Command.render, Command.render,
      renderPair_congr (h _ (by simp [inputs])) (h _ (by simp [inputs]))]
  | mkdir dir => rw [Command.render, Command.render, renderInput_congr (h _ (by simp [inputs]))]
  | installPackages packages =>
    have hpackages : renderInputs render packages = renderInputs render' packages :=
      renderInputs_congr h
    rw [Command.render, Command.render, hpackages]
  | updatePackages => rfl
  | asUser user run =>
    rw [Command.render, Command.render,
      renderPair_congr (h _ (by simp [inputs])) (h _ (by simp [inputs]))]
  | fixed action => rfl

theorem renderInput_of_ok {text text' : String} (h : render text = .ok text') :
    renderInput render text = (text', .ok ()) := by
  rw [renderInput, h]

theorem renderInput_eq_ok {text : String} :
    (renderInput render text).2 = .ok () ↔ ∃ text', render text = .ok text' := by
  rw [renderInput]
  cases render text <;> simp

theorem renderInputs_eq_ok {texts : List String} :
    (renderInputs render texts).2 = .ok () ↔ ∀ text ∈ texts, ∃ text', render text = .ok text' := by
  induction texts with
  | nil => simp [renderInputs]
  | cons text texts ih =>
    rw [List.forall_mem_cons, ← ih, ← renderInput_eq_ok, renderInputs]
    rcases renderInput render text with ⟨text', _ | _⟩ <;> simp

theorem renderPair_eq_ok {a b : String} : (renderPair render a b).2.2 = .ok () ↔
    (∃ a', render a = .ok a') ∧ ∃ b', render b = .ok b' := by
  rw [← renderInput_eq_ok, ← renderInput_eq_ok, renderPair]
  rcases renderInput render a with ⟨a', _ | _⟩ <;> simp

/-- Expanding succeeds if it does for each input that is a template. -/
theorem render_eq_ok {command : Command} : (command.render render).2 = .ok () ↔
    ∀ text ∈ command.inputs, ∃ text', render text = .ok text' := by
  cases command with
  | shell text => simpa [Command.render, inputs] using renderInput_eq_ok
  | writeFile file => simpa [Command.render, inputs] using renderPair_eq_ok
  | mkdir dir => simpa [Command.render, inputs] using renderInput_eq_ok
  | installPackages packages => exact renderInputs_eq_ok
  | updatePackages => simp [Command.render, inputs]
  | asUser user run => simpa [Command.render, inputs] using renderPair_eq_ok
  | fixed action => simp [Command.render, inputs]

/-- What an input holds after it is expanded, if it is. -/
def Input.expanded (render : String → Except Template.Error String) (i : Input) (text : String) :
    String :=
  if i.isTemplate then (renderInput render text).1 else text

theorem Input.expanded_of_not_isTemplate {i : Input} (h : i.isTemplate = false) :
    i.expanded render = id := by
  funext text
  simp [expanded, h]

theorem renderInputs_of_ok {texts : List String}
    (h : ∀ text ∈ texts, ∃ text', render text = .ok text') :
    (renderInputs render texts).1 = texts.map fun text => (renderInput render text).1 := by
  induction texts with
  | nil => rfl
  | cons text texts ih =>
    obtain ⟨⟨text', htext⟩, htexts⟩ := List.forall_mem_cons.1 h
    rw [renderInputs, renderInput_of_ok htext, List.map_cons, renderInput_of_ok htext, ← ih htexts]

theorem renderPair_of_ok {a b a' : String} (h : render a = .ok a') :
    renderPair render a b = (a', renderInput render b) := by
  rw [renderPair, renderInput_of_ok h]

/-- Expanding changes the inputs that are templates, each by itself. -/
theorem render_eq {command : Command} (h : (command.render render).2 = .ok ()) :
    (command.render render).1 = command.mapInputs (Input.expanded render) := by
  have hmode : Input.expanded render .mode = id := Input.expanded_of_not_isTemplate rfl
  have howner : Input.expanded render .owner = id := Input.expanded_of_not_isTemplate rfl
  rw [render_eq_ok] at h
  cases command with
  | shell text => rfl
  | writeFile file =>
    obtain ⟨path', hpath⟩ := h file.path (by simp [inputs])
    simp [Command.render, mapInputs, hmode, howner, Input.expanded, Input.isTemplate,
      renderPair_of_ok hpath, renderInput_of_ok hpath]
  | mkdir dir =>
    simp [Command.render, mapInputs, hmode, howner, Input.expanded, Input.isTemplate]
  | installPackages packages =>
    have hpackages : (packages.mapIdx fun index => Input.expanded render (.package index)) =
        packages.map fun text => (renderInput render text).1 := by
      refine List.ext_getElem? fun index => ?_
      rw [List.getElem?_mapIdx, List.getElem?_map]
      rfl
    rw [mapInputs, hpackages]
    exact congrArg installPackages (renderInputs_of_ok h)
  | updatePackages => rfl
  | asUser user run =>
    obtain ⟨user', huser⟩ := h user (by simp [inputs])
    simp [Command.render, mapInputs, Input.expanded, Input.isTemplate, renderPair_of_ok huser,
      renderInput_of_ok huser]
  | fixed action => rfl

/-- An input that is a template holds its text afterwards. -/
theorem input?_render {command : Command} (h : (command.render render).2 = .ok ()) {i : Input}
    (hi : i.isTemplate) {text : String} (htext : command.input? i = some text) :
    ∃ text', render text = .ok text' ∧ (command.render render).1.input? i = some text' := by
  obtain ⟨text', htext'⟩ := render_eq_ok.1 h text (mem_inputs.2 ⟨i, hi, htext⟩)
  refine ⟨text', htext', ?_⟩
  rw [render_eq h, input?_mapInputs, htext, Option.map_some, Input.expanded, if_pos hi,
    renderInput_of_ok htext']

/-- Any other input stays as it is. -/
theorem input?_render_of_not_isTemplate {command : Command}
    (h : (command.render render).2 = .ok ()) {i : Input} (hi : i.isTemplate = false) :
    (command.render render).1.input? i = command.input? i := by
  rw [render_eq h, input?_mapInputs, Input.expanded_of_not_isTemplate hi, Option.map_id, id]

end

/-! ### What is expanded -/

theorem freeze_eq_ok {command : Command} {action : Action} : command.freeze = .ok action ↔
    command.validate = .ok () ∧ Text.isBlankText command.script = false ∧
      action = ⟨command.script, command.label⟩ := by
  rw [freeze]
  cases command.validate with
  | error e => simp [bind, Except.bind]
  | ok u =>
    cases Text.isBlankText command.script <;>
      simp [bind, Except.bind, pure, Except.pure, throw, throwThe, MonadExceptOf.throw, eq_comm]

/-- Permission bits are accepted if they are octal digits. -/
theorem isMode_of_validate {command : Command} (h : command.validate = .ok ()) {mode : String}
    (hmode : command.input? .mode = some mode) : isMode mode := by
  have hcheck : checkMode (some mode) = .ok () := by
    cases command with
    | writeFile file =>
      obtain ⟨-, -, h⟩ := bind_eq_ok_iff.1 h
      exact hmode ▸ h
    | mkdir dir =>
      obtain ⟨-, -, h⟩ := bind_eq_ok_iff.1 h
      exact hmode ▸ h
    | _ => cases hmode
  rw [checkMode] at hcheck
  split at hcheck
  · assumption
  · cases hcheck

/-- Octal digits hold no placeholder. -/
theorem not_pending_of_isMode {mode : String} (h : isMode mode) :
    Template.isPending mode.toList = false := by
  rw [isMode, Bool.and_eq_true, List.all_eq_true] at h
  refine Template.isPending_of_not_mem fun hbrace => ?_
  exact absurd (h.2 _ hbrace) (by decide)

/-- Expanding a command succeeds if each input that is a template can be expanded.  Then each of
these holds its own text, with nothing left to expand, and the rest of the command is as it was.  So
every input is expanded if there is nothing to expand in the permission bits and in the owner, and
for no other command; and of these two it is the owner alone that an accepted command may hold
unexpanded. -/
theorem inputs_rendered (reference : Template.Reference) (rounds : Nat) (command : Command) :
    let render := Template.render reference rounds
    ((command.render render).2 = .ok () ↔
      ∀ i text, i.isTemplate → command.input? i = some text → ∃ text', render text = .ok text') ∧
    ∀ command', command.render render = (command', .ok ()) →
      command' = command.mapInputs (Input.expanded render) ∧
      (∀ i text, i.isTemplate → command.input? i = some text →
        ∃ text', render text = .ok text' ∧ command'.input? i = some text' ∧
          Template.Spent reference rounds text text') ∧
      (∀ i, i.isTemplate = false → command'.input? i = command.input? i) ∧
      ((∀ i text, command.input? i = some text →
          ∃ text', render text = .ok text' ∧ command'.input? i = some text') ↔
        ∀ i text, i.isTemplate = false → command.input? i = some text → render text = .ok text) ∧
      ∀ action, command'.freeze = .ok action →
        ∀ mode, command.input? .mode = some mode → Template.isPending mode.toList = false := by
  intro render
  have hok : (command.render render).2 = .ok () ↔
      ∀ i text, i.isTemplate → command.input? i = some text → ∃ text', render text = .ok text' := by
    simp only [render_eq_ok, mem_inputs]
    exact ⟨fun h i text hi htext => h text ⟨i, hi, htext⟩,
      fun h text ⟨i, hi, htext⟩ => h i text hi htext⟩
  refine ⟨hok, fun command' h => ?_⟩
  obtain rfl : (command.render render).1 = command' := by rw [h]
  have hresult : (command.render render).2 = .ok () := by rw [h]
  have hrest : ∀ i : Input, i.isTemplate = false →
      (command.render render).1.input? i = command.input? i :=
    fun _ => input?_render_of_not_isTemplate hresult
  refine ⟨render_eq hresult, ?_, hrest, ⟨fun hall i text hi htext => ?_, ?_⟩, ?_⟩
  · intro i text hi htext
    obtain ⟨text', htext', hinput⟩ := input?_render hresult hi htext
    exact ⟨text', htext', hinput, .of_render htext'⟩
  · obtain ⟨text', htext', hinput⟩ := hall i text htext
    rw [hrest i hi, htext] at hinput
    rw [htext', Option.some.inj hinput]
  · intro hsame i text htext
    cases hi : i.isTemplate with
    | true => exact input?_render hresult hi htext
    | false => exact ⟨text, hsame i text hi htext, (hrest i hi).trans htext⟩
  · intro action hfreeze mode hmode
    obtain ⟨hvalid, -⟩ := freeze_eq_ok.1 hfreeze
    exact not_pending_of_isMode (isMode_of_validate hvalid ((hrest .mode rfl).trans hmode))

/-! ### A directory with all its inputs -/

/-- One field with a text. -/
def named : Template.Reference := fun field => if field = "name" then some (.string "web") else none

/-- A directory with its owner and permission bits. -/
def directory (path owner : String) : Command :=
  .mkdir { path, mode? := some "0750", owner? := some owner }

theorem render_named : Template.render named 8 (Template.placeholder "name") = .ok "web" :=
  (Template.render_placeholder (by decide)).2
    ⟨.string "web", rfl, Template.render_of_not_pending (by decide)⟩

theorem render_directory (owner : String) :
    (directory ("/srv/" ++ Template.placeholder "name" ++ "/www") owner).render
      (Template.render named 8) = (directory "/srv/web/www" owner, .ok ()) := by
  have hbefore : Template.render named 8 "/srv/" = .ok "/srv/" :=
    Template.render_of_not_pending (by decide)
  have hafter : Template.render named 8 "/www" = .ok "/www" :=
    Template.render_of_not_pending (by decide)
  have hvalue : Template.render named 7 "web" = .ok "web" :=
    Template.render_of_not_pending (by decide)
  have hpath : Template.render named 8 ("/srv/" ++ Template.placeholder "name" ++ "/www") =
      .ok "/srv/web/www" :=
    (Template.render_splice (.plain (by decide)) (by decide)).2
      ⟨"/srv/", .string "web", "web", "/www", hbefore, rfl, hvalue, hafter, by decide⟩
  rw [directory, Command.render, renderInput_of_ok hpath]
  rfl

/-- Every input is expanded where the owner is a name. -/
theorem directory_rendered :
    let command := directory ("/srv/" ++ Template.placeholder "name" ++ "/www") "web"
    command.render (Template.render named 8) = (directory "/srv/web/www" "web", .ok ()) ∧
      ∀ i text, command.input? i = some text → ∃ text', Template.render named 8 text = .ok text' ∧
        (directory "/srv/web/www" "web").input? i = some text' := by
  intro command
  have h := render_directory "web"
  refine ⟨h, ((inputs_rendered named 8 command).2 _ h).2.2.2.1.2 fun i text hi htext => ?_⟩
  cases i with
  | mode =>
    obtain rfl : "0750" = text := Option.some.inj htext
    exact Template.render_of_not_pending (by decide)
  | owner =>
    obtain rfl : "web" = text := Option.some.inj htext
    exact Template.render_of_not_pending (by decide)
  | _ => cases hi

/-- An owner that is a template could be expanded but is not, and is accepted. -/
theorem directory_owner_kept :
    let owner := Template.placeholder "name"
    let command := directory ("/srv/" ++ Template.placeholder "name" ++ "/www") owner
    command.input? .owner = some owner ∧ Template.render named 8 owner = .ok "web" ∧
      ∃ command', command.render (Template.render named 8) = (command', .ok ()) ∧
        command'.input? .owner = some owner ∧ command'.freeze = .ok
          ⟨"mkdir -p /srv/web/www\nchown '\x7b\x7b .name \x7d\x7d' /srv/web/www\n" ++
            "chmod 0750 /srv/web/www", "mkdir /srv/web/www"⟩ := by
  intro owner command
  refine ⟨rfl, render_named, _, render_directory owner, rfl, freeze_eq_ok.2 ⟨?_, ?_, ?_⟩⟩
  · have habsolute : Path.isAbsolute "/srv/web/www" = true := by decide
    have hmode : isMode "0750" = true := by decide
    rw [directory, validate, checkAbsolute, if_pos habsolute, checkMode, if_pos hmode]
    rfl
  · decide +kernel
  · decide +kernel

end Command

end Provisioning
