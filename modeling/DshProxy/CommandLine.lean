import DshProxy.Io

/-! `main.rs`: what a command line comes to. The flags are read from left to right
and a later one overrides an earlier one; whatever is not understood stops the
process before it listens. -/
namespace DshProxy

/-- Admission limits for bridge registrations and clients. -/
structure Limits where
  /-- Most bridge links the process will hold at once. -/
  maxBridges : Nat := 1024
  /-- Most bridge links one peer address may hold at once. -/
  maxBridgesPerIp : Nat := 32
  /-- Most streams one bridge will carry at once. -/
  maxStreamsPerBridge : Nat := 2048
  /-- Deadline for the whole Noise_XX handshake, in milliseconds. -/
  handshakeTimeout : Nat := 10000
  /-- Most TLS client connections one peer address may hold at once. -/
  maxClientsPerIp : Nat := 64
  deriving DecidableEq, Repr

namespace CommandLine

/-- The variables `main` sets from its arguments. -/
structure Flags where
  listen : String := "0.0.0.0:443"
  key : Option String := none
  tlsCert : Option String := none
  tlsKey : Option String := none
  selfSigned : Bool := false
  limits : Limits := {}
  deriving DecidableEq, Repr

/-- How `main` ends without serving. -/
inductive Stop
  /-- The help text, and success. -/
  | help
  /-- A message, and exit code 2. -/
  | usage (message : String)
  /-- An error that `main` returns. -/
  | failed (error : IoError)
  deriving DecidableEq, Repr

/-- The characters behind an optional plus sign. -/
def digitsOf (text : String) : List Char :=
  match text.toList with
  | '+' :: rest => rest
  | all => all

/-- `str::parse::<usize>`: digits behind an optional plus sign, within 64 bits. -/
def parseUsize (text : String) : Option Nat :=
  if digitsOf text ≠ [] ∧ (digitsOf text).all Char.isDigit ∧
      Nat.ofDigitChars 10 (digitsOf text) 0 < 2 ^ 64 then
    some (Nat.ofDigitChars 10 (digitsOf text) 0)
  else none

/-- Read the next argument as a positive integer, or exit with a usage error. -/
def positive (next : Option String) (flag : String) : Except Stop Nat :=
  match next.bind parseUsize with
  | some (value + 1) => .ok (value + 1)
  | _ => .error (.usage ("dsh-proxy: " ++ flag ++ " needs a positive integer"))

/-- One arm of the loop over the arguments, and whether it has taken the next
one too. -/
def flag (f : Flags) (arg : String) (next : Option String) : Except Stop (Flags × Bool) :=
  match arg with
  | "--listen" => .ok ({ f with listen := next.getD f.listen }, true)
  | "--key" => .ok ({ f with key := next }, true)
  | "--tls-cert" => .ok ({ f with tlsCert := next }, true)
  | "--tls-key" => .ok ({ f with tlsKey := next }, true)
  | "--tls-self-signed" => .ok ({ f with selfSigned := true }, false)
  | "--max-bridges" => (positive next arg).map fun value =>
    ({ f with limits := { f.limits with maxBridges := value } }, true)
  | "--max-clients-per-ip" => (positive next arg).map fun value =>
    ({ f with limits := { f.limits with maxClientsPerIp := value } }, true)
  | "--max-bridges-per-ip" => (positive next arg).map fun value =>
    ({ f with limits := { f.limits with maxBridgesPerIp := value } }, true)
  | "--max-streams-per-bridge" => (positive next arg).map fun value =>
    ({ f with limits := { f.limits with maxStreamsPerBridge := value } }, true)
  | "--handshake-timeout-ms" => (positive next arg).map fun value =>
    ({ f with limits := { f.limits with handshakeTimeout := value } }, true)
  | "--help" | "-h" => .error .help
  | other => .error (.usage ("dsh-proxy: unknown argument " ++ other))

/-- `while let Some(arg) = args.next()`. -/
def readFlags : Flags → List String → Except Stop Flags
  | f, [] => .ok f
  | f, [arg] => (flag f arg none).map Prod.fst
  | f, arg :: next :: rest =>
    match flag f arg (some next) with
    | .error stop => .error stop
    | .ok (f, true) => readFlags f rest
    | .ok (f, false) => readFlags f (next :: rest)

/-- Where the certificate comes from. -/
inductive Identity
  | pem (cert key : String)
  | selfSigned
  deriving DecidableEq, Repr

/-- What `main` serves with. -/
structure Settings where
  listen : String
  privateKey : Bytes
  publicKey : Bytes
  identity : Identity
  limits : Limits
  deriving DecidableEq, Repr

/-- `noise::public_key_of`, over the curve's own derivation. -/
def publicKeyOf (derive : Bytes → Bytes) (privateKey : Bytes) : Result Bytes :=
  if privateKey.length = 32 then .ok (derive privateKey)
  else .error ⟨.invalidData, "private key must be 32 bytes"⟩

/-- The private key given as text, or a fresh one. -/
def privateKeyOf (decode : String → Option Bytes) (generated : Result Bytes) (key : Option String) :
    Except Stop Bytes :=
  match key with
  | some text =>
    match decode text with
    | some key => .ok key
    | none => .error (.usage "dsh-proxy: --key is not base64")
  | none => generated.mapError .failed

/-- TLS is what every client sees, so there is no unencrypted mode. -/
def identityOf (f : Flags) : Except Stop Identity :=
  match f.tlsCert, f.tlsKey with
  | some cert, some key => .ok (.pem cert key)
  | none, none =>
    if f.selfSigned then .ok .selfSigned
    else .error (.usage "dsh-proxy: provide --tls-cert and --tls-key, or --tls-self-signed")
  | _, _ => .error (.usage "dsh-proxy: provide --tls-cert and --tls-key, or --tls-self-signed")

/-- `main` up to the point where it binds its port. `decode` is base64 on trimmed
text, `generated` a fresh private key. -/
def configure (decode : String → Option Bytes) (derive : Bytes → Bytes) (generated : Result Bytes)
    (args : List String) : Except Stop Settings := do
  let f ← readFlags {} args
  let privateKey ← privateKeyOf decode generated f.key
  let publicKey ← (publicKeyOf derive privateKey).mapError .failed
  let identity ← identityOf f
  return { listen := f.listen, privateKey, publicKey, identity, limits := f.limits }

/-- The limits a flag can set. -/
inductive Ceiling
  | bridges
  | clientsPerIp
  | bridgesPerIp
  | streamsPerBridge
  | handshakeTimeout
  deriving DecidableEq, Repr

def Ceiling.flag : Ceiling → String
  | .bridges => "--max-bridges"
  | .clientsPerIp => "--max-clients-per-ip"
  | .bridgesPerIp => "--max-bridges-per-ip"
  | .streamsPerBridge => "--max-streams-per-bridge"
  | .handshakeTimeout => "--handshake-timeout-ms"

def Ceiling.set (value : Nat) (l : Limits) : Ceiling → Limits
  | .bridges => { l with maxBridges := value }
  | .clientsPerIp => { l with maxClientsPerIp := value }
  | .bridgesPerIp => { l with maxBridgesPerIp := value }
  | .streamsPerBridge => { l with maxStreamsPerBridge := value }
  | .handshakeTimeout => { l with handshakeTimeout := value }

/-- One option of a command line. A number is kept as the text it was given as. -/
inductive Opt
  | listen (value : String)
  | key (value : String)
  | tlsCert (value : String)
  | tlsKey (value : String)
  | selfSigned
  | ceiling (which : Ceiling) (text : String)
  deriving DecidableEq, Repr

namespace Opt

def args : Opt → List String
  | .listen value => ["--listen", value]
  | .key value => ["--key", value]
  | .tlsCert value => ["--tls-cert", value]
  | .tlsKey value => ["--tls-key", value]
  | .selfSigned => ["--tls-self-signed"]
  | .ceiling which text => [which.flag, text]

def set (f : Flags) : Opt → Flags
  | .listen value => { f with listen := value }
  | .key value => { f with key := some value }
  | .tlsCert value => { f with tlsCert := some value }
  | .tlsKey value => { f with tlsKey := some value }
  | .selfSigned => { f with selfSigned := true }
  | .ceiling which text => { f with limits := which.set ((parseUsize text).getD 0) f.limits }

/-- A number is a number, and not zero. -/
def Valid : Opt → Prop
  | .ceiling _ text => ∃ value, parseUsize text = some value ∧ 0 < value
  | _ => True

end Opt

/-- What may stand at the end of a line: a flag whose value is missing. -/
inductive Dangling
  | none
  | listen
  | key
  | tlsCert
  | tlsKey
  deriving DecidableEq, Repr

def Dangling.args : Dangling → List String
  | .none => []
  | .listen => ["--listen"]
  | .key => ["--key"]
  | .tlsCert => ["--tls-cert"]
  | .tlsKey => ["--tls-key"]

/-- `--listen` alone keeps the address; the others forget what was set before. -/
def Dangling.set (f : Flags) : Dangling → Flags
  | .none | .listen => f
  | .key => { f with key := .none }
  | .tlsCert => { f with tlsCert := .none }
  | .tlsKey => { f with tlsKey := .none }

/-- A line `main` understands. -/
structure Line where
  options : List Opt
  last : Dangling
  valid : ∀ o ∈ options, o.Valid

def Line.args (line : Line) : List String := line.options.flatMap Opt.args ++ line.last.args

/-- What it sets, from left to right. -/
def Line.set (f : Flags) (line : Line) : Flags := line.last.set (line.options.foldl Opt.set f)

theorem positive_ok {next : Option String} {name : String} {value : Nat} :
    positive next name = .ok value ↔ ∃ text, next = some text ∧ parseUsize text = some value ∧ 0 < value := by
  unfold positive
  constructor
  · intro read
    split at read
    · rename_i found
      cases read
      obtain ⟨text, rfl, parsed⟩ := Option.bind_eq_some_iff.mp found
      exact ⟨text, rfl, parsed, Nat.succ_pos _⟩
    · cases read
  · rintro ⟨text, rfl, parsed, some⟩
    obtain ⟨low, rfl⟩ := Nat.exists_eq_succ_of_ne_zero (Nat.ne_of_gt some)
    rw [Option.bind_some, parsed]

theorem parseUsize_lt {text : String} {value : Nat} (parsed : parseUsize text = some value) :
    value < 2 ^ 64 := by
  obtain ⟨⟨-, -, low⟩, same⟩ := Option.ite_none_right_eq_some.mp parsed
  cases same
  exact low

theorem digitsOf_repr (value : Nat) : digitsOf (Nat.repr value) = Nat.toDigits 10 value := by
  unfold digitsOf
  rw [Nat.toList_repr]
  split
  · rename_i rest shape
    have plus : Char.isDigit '+' = true :=
      Nat.isDigit_of_mem_toDigits (b := 10) (n := value) (by decide) (by decide) (by simp [shape])
    exact absurd plus (by decide)
  · rfl

/-- A number in decimal is read back. -/
theorem parseUsize_repr {value : Nat} (low : value < 2 ^ 64) : parseUsize (Nat.repr value) = some value := by
  have digits : (Nat.toDigits 10 value).all Char.isDigit = true :=
    List.all_eq_true.mpr fun c member => Nat.isDigit_of_mem_toDigits (by decide) (by decide) member
  unfold parseUsize
  rw [digitsOf_repr, Nat.ofDigitChars_ten_toDigits, if_pos ⟨Nat.toDigits_ne_nil, digits, low⟩]

variable {f g : Flags} {arg : String} {next : Option String} {used : Bool}

/-- What an arm does with the option it is for. -/
inductive Arm (f : Flags) (arg : String) : Option String → Flags × Bool → Prop
  | option (o : Opt) (value : String) (valid : o.Valid) (shape : o.args = [arg, value]) :
    Arm f arg (some value) (o.set f, true)
  | alone (rest : Option String) (shape : arg = "--tls-self-signed") :
    Arm f arg rest (Opt.selfSigned.set f, false)
  | dangling (d : Dangling) (shape : d.args = [arg]) : Arm f arg none (d.set f, true)

private theorem arm_value (which : String → Opt) (missing : Dangling) (next : Option String)
    (valid : ∀ value, (which value).Valid) (shape : ∀ value, (which value).args = [arg, value])
    (short : missing.args = [arg]) :
    Arm f arg next ((next.map fun value => (which value).set f).getD (missing.set f), true) := by
  cases next with
  | none => exact .dangling missing short
  | some value => exact .option (which value) value (valid value) (shape value)

private theorem arm_ceiling (which : Ceiling) {set : Nat → Flags}
    (same : ∀ value, set value = { f with limits := which.set value f.limits })
    (read : (positive next which.flag).map (fun value => (set value, true)) = .ok (g, used)) :
    Arm f which.flag next (g, used) := by
  cases parsed : positive next which.flag with
  | error stop =>
    rw [parsed] at read
    cases read
  | ok value =>
    rw [parsed] at read
    cases read
    obtain ⟨text, rfl, number, some⟩ := positive_ok.mp parsed
    have sets : set value = (Opt.ceiling which text).set f := by
      rw [same, Opt.set, number, Option.getD_some]
    rw [sets]
    exact .option (.ceiling which text) text ⟨value, number, some⟩ rfl

/-- An arm that does not stop has read an option. -/
theorem flag_arm (read : flag f arg next = .ok (g, used)) : Arm f arg next (g, used) := by
  unfold flag at read
  split at read
  · cases read
    have read := arm_value (f := f) .listen .listen next (fun _ => trivial) (fun _ => rfl) rfl
    cases next <;> exact read
  · cases read
    have read := arm_value (f := f) .key .key next (fun _ => trivial) (fun _ => rfl) rfl
    cases next <;> exact read
  · cases read
    have read := arm_value (f := f) .tlsCert .tlsCert next (fun _ => trivial) (fun _ => rfl) rfl
    cases next <;> exact read
  · cases read
    have read := arm_value (f := f) .tlsKey .tlsKey next (fun _ => trivial) (fun _ => rfl) rfl
    cases next <;> exact read
  · cases read
    exact .alone next rfl
  · exact arm_ceiling .bridges (fun _ => rfl) read
  · exact arm_ceiling .clientsPerIp (fun _ => rfl) read
  · exact arm_ceiling .bridgesPerIp (fun _ => rfl) read
  · exact arm_ceiling .streamsPerBridge (fun _ => rfl) read
  · exact arm_ceiling .handshakeTimeout (fun _ => rfl) read
  · cases read
  · cases read
  · cases read

/-- An option is read off the front of a line. -/
theorem readFlags_opt {o : Opt} (valid : o.Valid) (f : Flags) (rest : List String) :
    readFlags f (o.args ++ rest) = readFlags (o.set f) rest := by
  cases o with
  | selfSigned => cases rest <;> rfl
  | ceiling which text =>
    obtain ⟨value, number, some⟩ := valid
    have read : positive (.some text) which.flag = .ok value := positive_ok.mpr ⟨text, rfl, number, some⟩
    have same : (Opt.ceiling which text).set f = { f with limits := which.set value f.limits } := by
      rw [Opt.set, number, Option.getD_some]
    rw [same]
    simp only [Opt.args, List.cons_append, List.nil_append, readFlags]
    cases which <;> simp only [Ceiling.flag] at read ⊢ <;> rw [flag, read] <;> rfl
  | _ => rfl

theorem readFlags_dangling (d : Dangling) (f : Flags) : readFlags f d.args = .ok (d.set f) := by
  cases d <;> rfl

/-- What is read is a sequence of options, at the end perhaps a flag without its
value, and each of them does what it is for. -/
theorem readFlags_ok (f : Flags) (args : List String) (g : Flags) :
    readFlags f args = .ok g ↔ ∃ line : Line, line.args = args ∧ line.set f = g := by
  constructor
  · intro read
    fun_induction readFlags f args with
    | case1 f =>
      cases read
      exact ⟨⟨[], .none, by simp⟩, rfl, rfl⟩
    | case2 f arg =>
      cases arm : flag f arg none with
      | error stop =>
        rw [arm] at read
        cases read
      | ok after =>
        obtain ⟨after, used⟩ := after
        rw [arm] at read
        cases read
        cases flag_arm arm with
        | alone _ first => exact ⟨⟨[.selfSigned], .none, by simp [Opt.Valid]⟩, by rw [first]; rfl, rfl⟩
        | dangling d short => exact ⟨⟨[], d, by simp⟩, short, rfl⟩
    | case3 f arg next rest stop arm => cases read
    | case4 f arg next rest after arm ih =>
      obtain ⟨line, shape, same⟩ := ih read
      cases flag_arm arm with
      | option o value fine args =>
        refine ⟨⟨o :: line.options, line.last, ?_⟩, ?_, same⟩
        · simpa using ⟨fine, line.valid⟩
        · rw [← shape, Line.args, List.flatMap_cons, args]
          rfl
    | case5 f arg next rest after arm ih =>
      obtain ⟨line, shape, same⟩ := ih read
      cases flag_arm arm with
      | alone _ first =>
        refine ⟨⟨.selfSigned :: line.options, line.last, ?_⟩, ?_, same⟩
        · simpa [Opt.Valid] using line.valid
        · rw [← shape, Line.args, List.flatMap_cons, first]
          rfl
  · rintro ⟨⟨options, last, valid⟩, rfl, rfl⟩
    induction options generalizing f with
    | nil => exact readFlags_dangling last f
    | cons o options ih =>
      rw [Line.args, List.flatMap_cons, List.append_assoc, readFlags_opt (valid o (by simp))]
      exact ih (o.set f) fun other member => valid other (by simp [member])

/-- The value of one limit. -/
def Ceiling.get (l : Limits) : Ceiling → Nat
  | .bridges => l.maxBridges
  | .clientsPerIp => l.maxClientsPerIp
  | .bridgesPerIp => l.maxBridgesPerIp
  | .streamsPerBridge => l.maxStreamsPerBridge
  | .handshakeTimeout => l.handshakeTimeout

/-- Every limit is positive and fits a `usize`: that is all the flags ask for. From
2^61 on a number of bridges or of streams is still read, and `Semaphore::new`
panics on it when the process or a link is about to start. -/
def Sane (l : Limits) : Prop := ∀ which : Ceiling, 0 < which.get l ∧ which.get l < 2 ^ 64

theorem sane_default : Sane {} := by
  intro which
  cases which <;> decide

theorem Opt.set_sane {o : Opt} (valid : o.Valid) (sane : Sane f.limits) : Sane (o.set f).limits := by
  cases o with
  | ceiling which text =>
    obtain ⟨value, number, some⟩ := valid
    intro other
    simp only [Opt.set, number, Option.getD_some]
    have low := parseUsize_lt number
    have before := sane other
    cases which <;> cases other <;> first | exact ⟨some, low⟩ | exact before
  | _ => exact sane

theorem Line.set_sane (line : Line) (sane : Sane f.limits) : Sane (line.set f).limits := by
  obtain ⟨options, last, valid⟩ := line
  induction options generalizing f with
  | nil => cases last <;> exact sane
  | cons o options ih =>
    exact ih (Opt.set_sane (valid o (by simp)) sane) fun other member => valid other (by simp [member])

/-- Options for all that is text. -/
def texts (f : Flags) : List Opt :=
  .listen f.listen :: ((f.key.map .key).toList ++ (f.tlsCert.map .tlsCert).toList ++
    (f.tlsKey.map .tlsKey).toList ++ if f.selfSigned then [.selfSigned] else [])

/-- Options for all the limits, in decimal. -/
def ceilings (l : Limits) : List Opt :=
  [.bridges, .clientsPerIp, .bridgesPerIp, .streamsPerBridge, .handshakeTimeout].map
    fun which => .ceiling which (Nat.repr (which.get l))

private theorem texts_valid (f : Flags) : ∀ o ∈ texts f, o.Valid := by
  obtain ⟨listen, key, cert, tlsKey, selfSigned, limits⟩ := f
  cases key <;> cases cert <;> cases tlsKey <;> cases selfSigned <;> simp [texts, Opt.Valid]

private theorem texts_set (f : Flags) : (texts f).foldl Opt.set {} = { f with limits := {} } := by
  obtain ⟨listen, key, cert, tlsKey, selfSigned, limits⟩ := f
  cases key <;> cases cert <;> cases tlsKey <;> cases selfSigned <;> rfl

private theorem ceilings_valid {l : Limits} (sane : Sane l) : ∀ o ∈ ceilings l, o.Valid := by
  intro o member
  obtain ⟨which, -, rfl⟩ := List.mem_map.mp member
  exact ⟨_, parseUsize_repr (sane which).2, (sane which).1⟩

private theorem ceilings_set {l : Limits} (sane : Sane l) (f : Flags) :
    (ceilings l).foldl Opt.set f = { f with limits := l } := by
  have number (which : Ceiling) : (parseUsize (Nat.repr (which.get l))).getD 0 = which.get l := by
    rw [parseUsize_repr (sane which).2, Option.getD_some]
  simp only [ceilings, List.map_cons, List.map_nil, List.foldl_cons, List.foldl_nil, Opt.set, number,
    Ceiling.set]
  rfl

private theorem all_valid {f : Flags} (sane : Sane f.limits) :
    ∀ o ∈ texts f ++ ceilings f.limits, o.Valid := by
  intro o member
  obtain text | ceiling := List.mem_append.mp member
  · exact texts_valid f o text
  · exact ceilings_valid sane o ceiling

/-- A line that sets everything there is to set. -/
def lineOf (f : Flags) (sane : Sane f.limits) : Line where
  options := texts f ++ ceilings f.limits
  last := .none
  valid := all_valid sane

theorem lineOf_set (f : Flags) (sane : Sane f.limits) : (lineOf f sane).set {} = f := by
  rw [Line.set, lineOf, List.foldl_append, texts_set, ceilings_set sane]
  rfl

/-- Where `main` comes to serve, its arguments were read, and the rest was found. -/
theorem configure_ok {decode : String → Option Bytes} {derive : Bytes → Bytes} {generated : Result Bytes}
    {args : List String} {settings : Settings}
    (configured : configure decode derive generated args = .ok settings) :
    ∃ f, readFlags {} args = .ok f ∧ settings.limits = f.limits ∧ settings.listen = f.listen ∧
      identityOf f = .ok settings.identity ∧ publicKeyOf derive settings.privateKey = .ok settings.publicKey ∧
      ∀ text, f.key = some text → decode text = some settings.privateKey := by
  unfold configure at configured
  cases read : readFlags {} args with
  | error stop =>
    rw [read] at configured
    cases configured
  | ok f =>
    rw [read] at configured
    cases chosen : privateKeyOf decode generated f.key with
    | error stop =>
      simp only [bind, Except.bind, chosen] at configured
      cases configured
    | ok privateKey =>
      cases derived : publicKeyOf derive privateKey with
      | error error =>
        simp only [bind, Except.bind, chosen, derived] at configured
        cases configured
      | ok publicKey =>
        cases found : identityOf f with
        | error stop =>
          simp only [bind, Except.bind, chosen, derived, found] at configured
          cases configured
        | ok identity =>
          simp only [bind, Except.bind, chosen, derived, found] at configured
          cases configured
          refine ⟨f, rfl, rfl, rfl, found, derived, fun text given => ?_⟩
          rw [given, privateKeyOf] at chosen
          split at chosen
          · rename_i key decoded
            cases chosen
            exact decoded
          · cases chosen

/-- The command line. What is read without an error is exactly the lines made of
options, a later one overriding an earlier one, with at most one flag at the end
that misses its value; every setting can be given; and a process that goes on to
serve has positive limits, a 32-byte private key and the public key derived from it. -/
theorem command_line_is_read (decode : String → Option Bytes) (derive : Bytes → Bytes)
    (generated : Result Bytes) :
    (∀ args f, readFlags {} args = .ok f ↔ ∃ line : Line, line.args = args ∧ line.set {} = f) ∧
    (∀ f, Sane f.limits → ∃ line : Line, readFlags {} line.args = .ok f) ∧
    ∀ args settings, configure decode derive generated args = .ok settings →
      Sane settings.limits ∧ settings.privateKey.length = 32 ∧
      settings.publicKey = derive settings.privateKey := by
  refine ⟨readFlags_ok {}, fun f sane => ?_, fun args settings configured => ?_⟩
  · exact ⟨lineOf f sane, (readFlags_ok _ _ _).mpr ⟨_, rfl, lineOf_set f sane⟩⟩
  · obtain ⟨f, read, limits, -, -, derived, -⟩ := configure_ok configured
    obtain ⟨line, -, rfl⟩ := (readFlags_ok _ _ _).mp read
    refine ⟨?_, ?_⟩
    · rw [limits]
      exact line.set_sane sane_default
    · unfold publicKeyOf at derived
      split at derived
      · rename_i whole
        exact ⟨whole, (Except.ok.inj derived).symm⟩
      · cases derived

/-- Given twice, the second value counts; and a flag at the end without its value
forgets the first. -/
theorem command_line_is_read_overridden :
    (∃ line : Line, line.args = ["--max-bridges", "7", "--max-bridges", "+9", "--tls-self-signed", "--key"] ∧
      line.set {} = { selfSigned := true, limits := { maxBridges := 9 } }) ∧
    ∃ settings, configure (fun _ => none) List.reverse (.ok (List.replicate 31 1 ++ [2]))
        ["--key", "x", "--max-bridges", "3", "--tls-self-signed", "--key"] = .ok settings ∧
      settings.publicKey = 2 :: List.replicate 31 1 ∧ Sane settings.limits ∧
      settings.privateKey.length = 32 ∧ settings.publicKey = settings.privateKey.reverse := by
  obtain ⟨reads, -, sane⟩ :=
    command_line_is_read (fun _ => none) List.reverse (.ok (List.replicate 31 1 ++ [2]))
  have configured : configure (fun _ => none) List.reverse (.ok (List.replicate 31 1 ++ [2]))
      ["--key", "x", "--max-bridges", "3", "--tls-self-signed", "--key"] =
      .ok ⟨"0.0.0.0:443", List.replicate 31 1 ++ [2], 2 :: List.replicate 31 1, .selfSigned,
        { maxBridges := 3 }⟩ := by
    decide
  exact ⟨(reads _ _).mp (by decide), _, configured, rfl, sane _ _ configured⟩

end CommandLine
end DshProxy
