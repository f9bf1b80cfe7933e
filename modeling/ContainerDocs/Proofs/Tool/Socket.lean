import ContainerDocs.Proofs.System.Quiet
import ContainerDocs.Proofs.Tool.Commands

/-!
# The socket of the virtual machine

The runtime describes its virtual machines on demand. The first one may have a socket, whose address
is what tools need to know. A description that is missing, unreadable or without a socket gives no
address. One that has something else than an object or a text where these are due stops the search,
and so does one that nests too deep.

## Main definitions

* `Adapter.addressOfPath` — the address that the value of a path stands for.
* `Adapter.described?` — the description that the runtime prints.
* `Adapter.HoldsSocket` — a description tells where the socket is.
* `Adapter.Misdescribes` — a description has something of another type on the way to the socket.
* `Adapter.Overnests` — a description nests too deep to be read.

## Main statements

* `Adapter.socketIn_cases` — what is read off a description.
* `Adapter.machineSocket_detects` — the address that is found, if the search for it does not stop.
-/

namespace ContainerDocs

theorem Json.field?_eq_some_iff {v value : Json} {name : String} :
    v.field? name = some value ↔
      ∃ fields, v = .object fields ∧ Json.lookup fields (Text.ofString name) = some value := by
  cases v with
  | object fields => exact ⟨fun h => ⟨fields, rfl, h⟩, by rintro ⟨_, ⟨⟩, h⟩; exact h⟩
  | _ => exact ⟨by rintro ⟨⟩, by rintro ⟨_, ⟨⟩, -⟩⟩

namespace Adapter

open Run

/-! ## Descriptions of virtual machines -/

/-- The socket of the first virtual machine of a description is at a path. -/
def HoldsSocket (v : Json) (path : Text) : Prop :=
  path ≠ [] ∧ ∃ machine others info socket, v = .array (machine :: others) ∧
    machine.field? "ConnectionInfo" = some info ∧ info.field? "PodmanSocket" = some socket ∧
    socket.field? "Path" = some (.text path)

/-- A description has something on the way to the socket that is neither nothing nor of the type
that is due. -/
inductive Misdescribes : Json → Prop
  | connection {machine info : Json} {others : List Json}
      (hinfo : machine.field? "ConnectionInfo" = some info)
      (hobject : ∀ fields, info ≠ .object fields) (hsome : isNothing info = false) :
      Misdescribes (.array (machine :: others))
  | path {machine info socket path : Json} {others : List Json}
      (hinfo : machine.field? "ConnectionInfo" = some info)
      (hsocket : info.field? "PodmanSocket" = some socket)
      (hpath : socket.field? "Path" = some path) (htext : ∀ t, path ≠ .text t)
      (hsome : isNothing path = false) : Misdescribes (.array (machine :: others))

def addressOfPath : Json → Except Crash Text
  | .text path => .ok (if path.isEmpty then [] else socketAddress path)
  | other =>
    if isNothing other then .ok []
    else .error (.noAttribute
      ("'" ++ typeName other ++ "' object has no attribute '" ++ "startswith" ++ "'"))

/-- With an object for the connection and one for the socket, the path decides. -/
theorem socketIn_of_path {machine info socket : List (Text × Json)} {path : Json}
    (hinfo : Json.lookup machine (Text.ofString "ConnectionInfo") = some (.object info))
    (hsocket : Json.lookup info (Text.ofString "PodmanSocket") = some (.object socket))
    (hpath : Json.lookup socket (Text.ofString "Path") = some path) (others : List Json) :
    socketIn (.array (.object machine :: others)) = addressOfPath path := by
  rw [socketIn]
  dsimp only
  rw [hinfo]
  dsimp only [Option.getD_some]
  rw [hsocket]
  dsimp only [Option.getD_some]
  rw [hpath]
  cases path <;> rfl

theorem socketIn_of_holdsSocket {v : Json} {path : Text} (h : HoldsSocket v path) :
    socketIn v = .ok (socketAddress path) := by
  obtain ⟨hne, machine, others, info, socket, rfl, hinfo, hsocket, hpath⟩ := h
  obtain ⟨machine, rfl, hmachine⟩ := Json.field?_eq_some_iff.1 hinfo
  obtain ⟨connection, rfl, hconnection⟩ := Json.field?_eq_some_iff.1 hsocket
  obtain ⟨socket, rfl, htext⟩ := Json.field?_eq_some_iff.1 hpath
  rw [socketIn_of_path hmachine hconnection htext, addressOfPath, if_neg (by simpa using hne)]

theorem socketIn_of_misdescribes {v : Json} (h : Misdescribes v) :
    ∃ text, socketIn v = .error (.noAttribute text) := by
  cases h with
  | @connection machine info others hinfo hobject hsome =>
    obtain ⟨machine, rfl, hmachine⟩ := Json.field?_eq_some_iff.1 hinfo
    rw [socketIn]
    dsimp only
    rw [hmachine]
    dsimp only [Option.getD_some]
    split
    next fields => exact absurd rfl (hobject fields)
    next => exact ⟨_, if_neg (by simp [hsome])⟩
  | @path machine info socket path others hinfo hsocket hpath htext hsome =>
    obtain ⟨machine, rfl, hmachine⟩ := Json.field?_eq_some_iff.1 hinfo
    obtain ⟨connection, rfl, hconnection⟩ := Json.field?_eq_some_iff.1 hsocket
    obtain ⟨socket, rfl, hvalue⟩ := Json.field?_eq_some_iff.1 hpath
    rw [socketIn_of_path hmachine hconnection hvalue]
    unfold addressOfPath
    split
    next t => exact absurd rfl (htext t)
    next => exact ⟨_, if_neg (by simp [hsome])⟩

/-- A description is misshapen, tells where the socket is, or gives no address. -/
theorem socketIn_cases (v : Json) :
    Misdescribes v ∨ (∃ path, HoldsSocket v path) ∨ socketIn v = .ok [] := by
  unfold socketIn
  extract_lets missing
  split
  next machine others =>
    cases hinfo : Json.lookup machine (Text.ofString "ConnectionInfo") with
    | none => exact .inr (.inr rfl)
    | some info =>
      dsimp only [Option.getD_some]
      split
      next info =>
        cases hsocket : Json.lookup info (Text.ofString "PodmanSocket") with
        | none => exact .inr (.inr rfl)
        | some socket =>
          dsimp only [Option.getD_some]
          split
          next socket =>
            cases hpath : Json.lookup socket (Text.ofString "Path") with
            | none => exact .inr (.inr rfl)
            | some path =>
              dsimp only [Option.getD_some]
              split
              next path =>
                by_cases hne : path = []
                · exact .inr (.inr (by rw [if_pos (by simp [hne])]))
                · exact .inr (.inl ⟨path, hne, _, _, _, _, rfl, hinfo, hsocket, hpath⟩)
              next _ htext =>
                cases hsome : isNothing path with
                | false => exact .inl (.path hinfo hsocket hpath htext hsome)
                | true => exact .inr (.inr rfl)
          next => exact .inr (.inr rfl)
      next _ hobject =>
        cases hsome : isNothing info with
        | false => exact .inl (.connection hinfo hobject hsome)
        | true => exact .inr (.inr rfl)
  next => exact .inr (.inr rfl)

/-! ## Addresses -/

theorem socketScheme_prefix_socketAddress (path : Text) : socketScheme <+: socketAddress path := by
  rw [socketAddress]
  split_ifs with hstart
  · exact List.isPrefixOf_iff_prefix.1 hstart
  · exact List.prefix_append ..

theorem socketAddress_ne_nil (path : Text) : socketAddress path ≠ [] := by
  intro h
  have hprefix := socketScheme_prefix_socketAddress path
  rw [h, List.prefix_nil] at hprefix
  exact absurd hprefix (by decide)

/-! ## Asking the runtime -/

/-- The description of virtual machines that the runtime prints after other commands, if it prints
one that can be read. -/
def described? (w : World) (before : List (List String)) : Option Json :=
  (w.outcome machineTimeout before socketCommand).toOption.bind fun output =>
    (Json.read (w.nesting socketCommand) output).toOption

/-- After other commands, the runtime prints a description with more arrays and objects in each
other than can be read. -/
def Overnests (w : World) (before : List (List String)) : Prop :=
  ∃ output c, w.outcome machineTimeout before socketCommand = .ok output ∧
    Json.read (w.nesting socketCommand) output = .error (.tooDeep c)

variable {w : World} {m : Machine}

/-- The search for the socket finds a description and reads it off, or it finds none, or it stops at
one that nests too deep. -/
theorem exec_machineSocket
    (hi : ∀ b, w.respond m.commands socketCommand = .runs b → b.interruptions = 0) :
    (∃ v, described? w m.commands = some v ∧ ¬Overnests w m.commands ∧
      (exec machineSocket w m).1 = (socketIn v).mapError .crash) ∨
    (described? w m.commands = none ∧ ¬Overnests w m.commands ∧
      (exec machineSocket w m).1 = .ok []) ∨
    (described? w m.commands = none ∧ Overnests w m.commands ∧
      ∃ text, (exec machineSocket w m).1 = .error (.crash (.nesting text))) := by
  obtain ⟨m', hexec, -⟩ := exec_command_unwatched hi machineTimeout none
  rw [machineSocket, exec_bind, exec_tryCatch, exec_map, hexec, described?]
  cases houtcome : w.outcome machineTimeout m.commands socketCommand with
  | error f =>
    refine .inr (.inl ⟨rfl, ?_, rfl⟩)
    rintro ⟨output, c, houtput, -⟩
    cases houtcome.symm.trans houtput
  | ok output =>
    have hdeep : Overnests w m.commands ↔
        ∃ c, Json.read (w.nesting socketCommand) output = .error (.tooDeep c) := by
      constructor
      · rintro ⟨output', c, houtput, hread⟩
        obtain rfl := Except.ok.inj (houtcome.symm.trans houtput)
        exact ⟨c, hread⟩
      · rintro ⟨c, hread⟩
        exact ⟨output, c, houtcome, hread⟩
    dsimp only [Except.mapError, Except.map, Except.toOption, Option.bind_some]
    rw [exec_bind, exec_read, hdeep]
    dsimp only
    cases hread : Json.read (w.nesting socketCommand) output with
    | error e =>
      cases e with
      | tooDeep c => exact .inr (.inr ⟨rfl, ⟨c, rfl⟩, _, rfl⟩)
      | _ => exact .inr (.inl ⟨rfl, by rintro ⟨_, ⟨⟩⟩, rfl⟩)
    | ok v =>
      refine .inl ⟨v, rfl, by rintro ⟨_, ⟨⟩⟩, ?_⟩
      dsimp only
      rw [exec_ofExcept]

/-- The search for the socket of the virtual machine stops if the description has something of
another type on the way to the socket, a value that counts as nothing apart, and if it has more
arrays and objects in each other than can be read. Otherwise it gives an address, whatever the
runtime prints and however it fails: nothing, or the path of the socket that the description tells
with the scheme in front, unless it is there. -/
theorem machineSocket_detects (w : World) (m : Machine)
    (hi : ∀ b, w.respond m.commands socketCommand = .runs b → b.interruptions = 0) :
    (∀ v, described? w m.commands = some v → Misdescribes v →
      ∃ text, (exec machineSocket w m).1 = .error (.crash (.noAttribute text))) ∧
    (Overnests w m.commands →
      ∃ text, (exec machineSocket w m).1 = .error (.crash (.nesting text))) ∧
    (¬Overnests w m.commands → (∀ v, described? w m.commands = some v → ¬Misdescribes v) →
      ∃ address, (exec machineSocket w m).1 = .ok address ∧
        (address = [] ∨ socketScheme <+: address) ∧
        (address ≠ [] ↔ ∃ v path, described? w m.commands = some v ∧ HoldsSocket v path) ∧
        ∀ v path, described? w m.commands = some v → HoldsSocket v path →
          address = socketAddress path) := by
  obtain ⟨v, hv, hnests, hexec⟩ | ⟨hnone, hnests, hexec⟩ | ⟨hnone, hnests, hexec⟩ :=
    exec_machineSocket hi
  · rw [hexec, hv]
    refine ⟨?_, fun h => absurd h hnests, fun _ hshape => ?_⟩
    · rintro _ ⟨⟩ hmis
      obtain ⟨text, htext⟩ := socketIn_of_misdescribes hmis
      exact ⟨text, by rw [htext]; rfl⟩
    · obtain hmis | ⟨path, hpath⟩ | hnone := socketIn_cases v
      · exact absurd hmis (hshape v rfl)
      · have haddress := socketIn_of_holdsSocket hpath
        refine ⟨socketAddress path, by rw [haddress]; rfl,
          .inr (socketScheme_prefix_socketAddress path),
          ⟨fun _ => ⟨v, path, rfl, hpath⟩, fun _ => socketAddress_ne_nil path⟩, ?_⟩
        rintro _ path' ⟨⟩ hpath'
        exact Except.ok.inj (haddress.symm.trans (socketIn_of_holdsSocket hpath'))
      · have hno : ∀ path, ¬HoldsSocket v path := by
          intro path hpath
          rw [socketIn_of_holdsSocket hpath] at hnone
          exact socketAddress_ne_nil path (Except.ok.inj hnone)
        refine ⟨[], by rw [hnone]; rfl, .inl rfl, ⟨fun h => absurd rfl h, ?_⟩, ?_⟩
        · rintro ⟨_, path, ⟨⟩, hpath⟩
          exact absurd hpath (hno path)
        · rintro _ path ⟨⟩ hpath
          exact absurd hpath (hno path)
  · rw [hexec, hnone]
    refine ⟨by rintro v ⟨⟩, fun h => absurd h hnests, fun _ _ =>
      ⟨[], rfl, .inl rfl, ⟨fun h => absurd rfl h, ?_⟩, by rintro v _ ⟨⟩⟩⟩
    rintro ⟨v, path, ⟨⟩, -⟩
  · rw [hnone]
    exact ⟨by rintro v ⟨⟩, fun _ => hexec, fun h => absurd hnests h⟩

/-- A world in which the runtime prints a description of virtual machines. -/
def describing (description : String) : World where
  respond _ _ := .runs { output := description.toUTF8.toList }
  find? _ := none
  environment := []
  directory := "/"
  now _ := ⟨⟨2024, 1, 1⟩, 0, 0, 0, 0, none⟩

/-- A path that needs the scheme in front. -/
theorem machineSocket_detects_of_path :
    let w := describing
      "[\x7b\"ConnectionInfo\": \x7b\"PodmanSocket\": \x7b\"Path\": \"/run/p.sock\"\x7d\x7d\x7d]"
    let m : Machine := { files := ⟨[]⟩ }
    (∀ b, w.respond m.commands socketCommand = .runs b → b.interruptions = 0) ∧
      ¬Overnests w m.commands ∧ (∀ v, described? w m.commands = some v → ¬Misdescribes v) ∧
      (exec machineSocket w m).1 = .ok (Text.ofString "unix:///run/p.sock") ∧
      ∃ v path, described? w m.commands = some v ∧ HoldsSocket v path := by
  intro w m
  have hi : ∀ b, w.respond m.commands socketCommand = .runs b → b.interruptions = 0 := by
    rintro _ ⟨⟩
    rfl
  have hfound :
      (exec machineSocket w m).1.toOption = some (Text.ofString "unix:///run/p.sock") := by
    decide +kernel
  obtain ⟨hstops, hstops', hgives⟩ := machineSocket_detects w m hi
  have hnests : ¬Overnests w m.commands := by
    intro h
    obtain ⟨text, htext⟩ := hstops' h
    rw [htext] at hfound
    cases hfound
  have hshape : ∀ v, described? w m.commands = some v → ¬Misdescribes v := by
    intro v hv hmis
    obtain ⟨text, htext⟩ := hstops v hv hmis
    rw [htext] at hfound
    cases hfound
  obtain ⟨address, haddress, -, hiff, -⟩ := hgives hnests hshape
  rw [haddress] at hfound ⊢
  obtain rfl : address = Text.ofString "unix:///run/p.sock" := Option.some.inj hfound
  exact ⟨hi, hnests, hshape, rfl, hiff.1 (by decide)⟩

/-- A number in place of an object stops the search. -/
theorem machineSocket_stops_at_number :
    let w := describing "[\x7b\"ConnectionInfo\": 1\x7d]"
    let m : Machine := { files := ⟨[]⟩ }
    (∀ b, w.respond m.commands socketCommand = .runs b → b.interruptions = 0) ∧
      ¬∃ address, (exec machineSocket w m).1 = .ok address := by
  intro w m
  have hstopped : (exec machineSocket w m).1.toOption = none := by decide +kernel
  refine ⟨by rintro _ ⟨⟩; rfl, ?_⟩
  rintro ⟨address, haddress⟩
  rw [haddress] at hstopped
  cases hstopped

end Adapter
end ContainerDocs
