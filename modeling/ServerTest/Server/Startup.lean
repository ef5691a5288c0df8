import ServerTest.Configuration.Getters
import ServerTest.Configuration.Isolation
import ServerTest.Configuration.RoundTrip

/-!
# From `LoginService.ini` to the addresses of the service

`main` loads two files and calls `LoginService::Start`, which asks the configuration for its settings
with one-key getters, repairs the port, and resolves two addresses before anything is bound. All the
results of the getters are dropped, so a setting that cannot be read leaves its variable as it was.

A file written as in `RoundTrip` goes all the way: through `fgets`, the parser, `ValueHandler`, the list
of `Config` under the stem of the file's name, the key cut at its first `.`, and `strtol`.
-/

set_option autoImplicit false

namespace ServerTest.Server

open Lib ServerTest.Configuration

/-! ## The code -/

/-- `std::to_string` of an `int`. -/
def toStringInt (value : Int) : Bytes := formatD 0 value

/-- The first endpoint that a host and a service resolve to. -/
abbrev Resolver (Endpoint : Type) := Bytes → Bytes → Option Endpoint

/-- The members of `LoginService` that `Start` sets before it runs. -/
structure ServiceSettings (Endpoint : Type) where
  ipAddress : Bytes
  bindIP : Bytes
  port : Int
  externalAddress : Option Endpoint
  localAddress : Option Endpoint

section

variable {Endpoint : Type} (model : DataModel) (resolve : Resolver Endpoint)

/-- `if (Port < 0 || Port > 0xFFFF) Port = 8081;` -/
def checkedPort (port : Int) : Int := if port < 0 ∨ 0xFFFF < port then 8081 else port

/-- `LoginService::Start` up to the point where the service is set up; `false` if it gives up. -/
def start (config : Config) (service : ServiceSettings Endpoint) :
    Bool × ServiceSettings Endpoint :=
  let service := { service with bindIP := ascii "0.0.0.0" }
  let service := { service with ipAddress :=
    (config.getString (ascii "LoginService.Initialization.IPAddress") service.ipAddress).2 }
  let tempExternalAddress :=
    (config.getString (ascii "LoginService.Initialization.ExternalIPAddress") []).2
  let tempLocalAddress :=
    (config.getString (ascii "LoginService.Initialization.LocalIPAddress") []).2
  let port := (config.getInt model (ascii "LoginService.Initialization.Port") service.port).2
  let service := { service with port := checkedPort port }
  match resolve tempExternalAddress (toStringInt service.port) with
  | none => (false, service)
  | some endPoint =>
    let service := { service with externalAddress := some endPoint }
    match resolve tempLocalAddress (toStringInt service.port) with
    | none => (false, service)
    | some endPoint => (true, { service with localAddress := some endPoint })

/-- `main` up to there; the arguments are what opening the two files yields. -/
def startup (configFile loginServiceFile : Option Bytes) (service : ServiceSettings Endpoint) :
    Bool × ServiceSettings Endpoint :=
  let config := (Config.new.load (ascii "config.ini") configFile).2
  let config := (config.load (ascii "LoginService.ini") loginServiceFile).2
  start model resolve config service

/-! ## What `Start` asks for -/

/-- `start` in terms of the answers of the four getters. -/
theorem start_eq {config : Config} (service : ServiceSettings Endpoint)
    {ip external local_ : Bytes} {port : Int}
    (hip : (config.getString (ascii "LoginService.Initialization.IPAddress") service.ipAddress).2 = ip)
    (hexternal : (config.getString (ascii "LoginService.Initialization.ExternalIPAddress") []).2 =
      external)
    (hlocal : (config.getString (ascii "LoginService.Initialization.LocalIPAddress") []).2 = local_)
    (hport : (config.getInt model (ascii "LoginService.Initialization.Port") service.port).2 = port) :
    (start model resolve config service).2.bindIP = ascii "0.0.0.0" ∧
      (start model resolve config service).2.ipAddress = ip ∧
      (start model resolve config service).2.port = checkedPort port ∧
      ((start model resolve config service).1 = true ↔
        (resolve external (toStringInt (checkedPort port))).isSome ∧
          (resolve local_ (toStringInt (checkedPort port))).isSome) ∧
      ((start model resolve config service).1 = true →
        (start model resolve config service).2.externalAddress =
            resolve external (toStringInt (checkedPort port)) ∧
          (start model resolve config service).2.localAddress =
            resolve local_ (toStringInt (checkedPort port))) := by
  simp only [start, hip, hexternal, hlocal, hport]
  cases hext : resolve external (toStringInt (checkedPort port)) with
  | none => simp
  | some endPoint =>
    cases hloc : resolve local_ (toStringInt (checkedPort port)) with
    | none => simp
    | some endPoint' => simp

end

/-! ## The file -/

/-- The file whose sections these are sets `Initialization.name` to `text`. -/
def Sets (sections : List Section) (name text : Bytes) : Prop :=
  ∃ setting ∈ settings sections,
    keyOf setting = lower (ascii "Initialization." ++ name) ∧ setting.2.text = text

/-- What a well-formed file has under a key. -/
theorem lookup_of_sets {sections : List Section} (hkeys : ((settings sections).map keyOf).Nodup)
    {name text : Bytes} (h : Sets sections name text) (output : Bytes) :
    (Contents.handleAll ((settings sections).flatMap callsOf)).getString
      (lower (ascii "Initialization." ++ name)) output = (.OK, text) := by
  obtain ⟨setting, hmem, hkey, rfl⟩ := h
  have hlookup := Contents.getSectionString_handleAll ((settings sections).flatMap callsOf)
    setting.1 setting.2.name output
  have hown : Contents.makeKey setting.1 setting.2.name = keyOf setting := rfl
  rw [hown, valuesUnder_settings hkeys hmem, if_neg (by simp), joined_text] at hlookup
  rw [← hkey]
  exact hlookup

theorem find_startup {sections : List Section}
    (hlength : ∀ line ∈ lines sections, (line ++ [chr '\n']).length ≤ 199)
    (configFile : Option Bytes) :
    ((Config.new.load (ascii "config.ini") configFile).2.load (ascii "LoginService.ini")
        (some (render sections))).2.find (ascii "LoginService") =
      some (entry (ascii "LoginService")
        (Contents.handleAll ((settings sections).flatMap callsOf))) := by
  obtain ⟨config, hconfig⟩ : ∃ config, config = (Config.new.load (ascii "config.ini") configFile).2 :=
    ⟨_, rfl⟩
  -- Nothing but `config` can be there, so neither name is taken.
  have hothers : ∀ name : Bytes, name ≠ ascii "config" → config.find name = none := by
    intro name hname
    have hstem : name ≠ ConfigFile.stem (ascii "config.ini") := hname
    rw [hconfig, Config.find_eq_head?, Config.entriesNamed_load hstem]
    rfl
  have hload : ConfigFile.new.loadFile (ascii "LoginService.ini") (some (render sections)) =
      (0, entry (ascii "LoginService") (Contents.handleAll ((settings sections).flatMap callsOf))) := by
    unfold ConfigFile.loadFile iniParse
    rw [show ConfigFile.new.toContents = Contents.empty from rfl]
    simp only [iniParseFile_render hlength]
    rfl
  have hnone := hothers (ascii "LoginService") (by decide)
  rw [← hconfig, Config.load, hothers (ascii "LoginService.ini") (by decide)]
  simp only [hload, if_true]
  unfold Config.find at hnone ⊢
  rw [List.find?_append, hnone, Option.none_or, List.find?_singleton]
  exact if_pos (decide_eq_true rfl)

/-! ## Decimal ports -/

/-- The leading digit of a number that has one is not zero. -/
theorem head_toDigits {n : Nat} (hn : 0 < n) : (Nat.toDigits 10 n).head? ≠ some '0' := by
  induction n using Nat.strongRecOn with
  | ind n ih =>
    by_cases hlt : n < 10
    · have hdigit : ∀ k : Fin 10, 0 < k.val → Nat.digitChar k.val ≠ '0' := by decide
      rw [Nat.toDigits_of_lt_base hlt]
      exact fun heq => hdigit ⟨n, hlt⟩ hn (Option.some.inj heq)
    · have hdiv : 0 < n / 10 := Nat.div_pos (Nat.not_lt.mp hlt) (by decide)
      rw [Nat.toDigits_of_base_le (by decide) (Nat.not_lt.mp hlt),
        List.head?_append_of_ne_nil _ Nat.toDigits_ne_nil]
      exact ih (n / 10) (Nat.div_lt_self hn (by decide)) hdiv

theorem octal_decimal (n : Nat) : octal (decimal n) = false := by
  rcases Nat.eq_zero_or_pos n with rfl | hn
  · decide
  · have hhead := head_toDigits hn
    unfold decimal
    cases hdigits : Nat.toDigits 10 n with
    | nil => rfl
    | cons c rest =>
      have hzero : chr c ≠ chr '0' := by
        intro heq
        have hc : c.isDigit := Nat.isDigit_of_mem_toDigits (by decide) (by decide)
          (hdigits ▸ List.mem_cons_self)
        have hval := (toNat_chr_of_isDigit hc).1
        rw [heq] at hval
        rw [hdigits] at hhead
        exact hhead (congrArg some (Char.toNat_inj.mp hval.symm))
      cases rest with
      | nil => rfl
      | cons d rest => simp [octal, hzero]

theorem numeralIn_decimal (n : Nat) : numeralIn 10 (decimal n) = some n := by
  have hdigits : ∀ c ∈ decimal n, digitValue c < 10 :=
    fun c hc => (digitValue_lt_ten c).mpr (isdigit_of_mem_decimal hc)
  have hvalue : ∀ c : UInt8, isdigit c = true → digitValue c = c.toNat - 48 := by
    apply forall_byte
    decide +kernel
  have hall : (decimal n).takeWhile isdigit = decimal n :=
    List.takeWhile_eq_self_iff.mpr fun c hc => isdigit_of_mem_decimal hc
  have hnumeral : numeral 10 ((decimal n).map digitValue) = digitsValue (decimal n) := by
    rw [digitsValue, hall, numeral, continueNumeral, List.foldl_map]
    apply List.foldl_ext
    intro k c hc
    rw [hvalue c (isdigit_of_mem_decimal hc), Nat.mul_comm]
  unfold numeralIn
  rw [if_pos ⟨decimal_ne_nil n, by simpa using hdigits⟩, hnumeral, digitsValue_decimal]

/-- A decimal is read for what it is. -/
theorem longOf_decimal_self (model : DataModel) (n : Nat) :
    Contents.longOf model (decimal n) = some (clamp model n) := by
  obtain ⟨c, rest, htext⟩ := List.exists_cons_of_ne_nil (decimal_ne_nil n)
  have hdigit : ∀ b ∈ c :: rest, isdigit b = true :=
    fun b hb => isdigit_of_mem_decimal (htext ▸ hb)
  obtain ⟨hspace, hminus, hplus, -⟩ := isdigit_excludes (hdigit c List.mem_cons_self)
  have hsign : unsigned (c :: rest) = c :: rest := by simp [unsigned, hminus, hplus]
  have hnumeral := numeralIn_decimal n
  rw [htext] at hnumeral
  obtain ⟨r, hlong, hread⟩ := longOf_decimal model hspace
    (fun b hb => (isdigit_excludes (hdigit b hb)).2.2.2) hsign hnumeral
  rw [if_neg hminus] at hread
  have hoctal : octal (unsigned (c :: rest)) = false := by rw [hsign, ← htext, octal_decimal]
  rcases hread with ⟨rfl, -⟩ | ⟨-, hyes, -⟩
  · rw [htext, hlong]
  · rw [hoctal] at hyes
    cases hyes

theorem clamp_port (model : DataModel) {n : Nat} (hn : n ≤ 0xFFFF) : clamp model n = n := by
  have hbound : (0xFFFF : Int) ≤ 2 ^ (longBits model - 1) - 1 := by cases model <;> decide
  unfold clamp
  omega

theorem checkedPort_of_le {n : Nat} (hn : n ≤ 0xFFFF) : checkedPort (n : Int) = n := by
  unfold checkedPort
  exact if_neg (by omega)

theorem toStringInt_natCast (n : Nat) : toStringInt (n : Int) = decimal n := by
  simp [toStringInt, formatD]

/-! ## All the way -/

theorem splitKey_initialization (name : Bytes) :
    Config.splitKey (ascii "LoginService.Initialization." ++ name) =
      (ascii "LoginService", ascii "Initialization." ++ name) :=
  splitKey_of_noDot (show chr '.' ∉ ascii "LoginService" by decide) (ascii "Initialization." ++ name)

section

variable {config : Config} {sections : List Section}
  (hfind : config.find (ascii "LoginService") = some (entry (ascii "LoginService")
    (Contents.handleAll ((settings sections).flatMap callsOf))))
  (hkeys : ((settings sections).map keyOf).Nodup)

include hfind hkeys

theorem getString_of_sets {name text : Bytes} (h : Sets sections name text) (output : Bytes) :
    config.getString (ascii "LoginService.Initialization." ++ name) output = (.OK, text) := by
  rw [Config.getString, Config.dotted, splitKey_initialization, hfind]
  exact lookup_of_sets hkeys h output

/-- The port goes through a `long` and an `int`; neither changes it. -/
theorem getInt_of_sets (model : DataModel) {n : Nat} (h : Sets sections (ascii "Port") (decimal n))
    (hn : n ≤ 0xFFFF) (output : Int) :
    config.getInt model (ascii "LoginService.Initialization.Port") output = (.OK, (n : Int)) := by
  have hkey : ascii "LoginService.Initialization.Port" =
      ascii "LoginService.Initialization." ++ ascii "Port" := by decide
  have hlong : Contents.getLong model (entry (ascii "LoginService")
      (Contents.handleAll ((settings sections).flatMap callsOf))).toContents
        (lower (ascii "Initialization." ++ ascii "Port")) 0 = (.OK, (n : Int)) := by
    have htext := lookup_of_sets hkeys h []
    rw [Contents.getLong]
    show Contents.parsed (Contents.longOf model) ((Contents.handleAll
      ((settings sections).flatMap callsOf)).getString _ []).2 0 = _
    rw [htext, Contents.parsed, longOf_decimal_self, clamp_port model hn]
  have hint : toInt32 (n : Int) = n := by
    unfold toInt32
    omega
  rw [hkey, Config.getInt, Config.dotted, splitKey_initialization, hfind]
  show Config.converted toInt32 (Contents.getLong model _ _ 0) _ = _
  rw [hlong, Config.converted, hint]

end

/-- **The service uses what its file says.** Take any `config.ini`, also none or one with errors, and a
`LoginService.ini` that is well-formed, with these four settings in it, a port in range, and anything
else. Then `Start` takes exactly them: the port, the addresses it resolves, and whether it goes on. -/
theorem startup_uses_settings {Endpoint : Type} (model : DataModel) (resolve : Resolver Endpoint)
    (configFile : Option Bytes) (service : ServiceSettings Endpoint) {sections : List Section}
    (hlength : ∀ line ∈ lines sections, (line ++ [chr '\n']).length ≤ 199)
    (hkeys : ((settings sections).map keyOf).Nodup) {ip external local_ : Bytes} {n : Nat}
    (hip : Sets sections (ascii "IPAddress") ip)
    (hexternal : Sets sections (ascii "ExternalIPAddress") external)
    (hlocal : Sets sections (ascii "LocalIPAddress") local_)
    (hport : Sets sections (ascii "Port") (decimal n)) (hn : n ≤ 0xFFFF) :
    let result := startup model resolve configFile (some (render sections)) service
    result.2.bindIP = ascii "0.0.0.0" ∧ result.2.ipAddress = ip ∧ result.2.port = n ∧
      (result.1 = true ↔ (resolve external (decimal n)).isSome ∧ (resolve local_ (decimal n)).isSome) ∧
      (result.1 = true → result.2.externalAddress = resolve external (decimal n) ∧
        result.2.localAddress = resolve local_ (decimal n)) := by
  intro result
  obtain ⟨config, hconfig⟩ : ∃ config, config =
      ((Config.new.load (ascii "config.ini") configFile).2.load (ascii "LoginService.ini")
        (some (render sections))).2 := ⟨_, rfl⟩
  have hfind := find_startup hlength configFile
  rw [← hconfig] at hfind
  have hstart := start_eq model resolve service
    (congrArg Prod.snd (getString_of_sets hfind hkeys hip service.ipAddress))
    (congrArg Prod.snd (getString_of_sets hfind hkeys hexternal []))
    (congrArg Prod.snd (getString_of_sets hfind hkeys hlocal []))
    (congrArg Prod.snd (getInt_of_sets hfind hkeys model hport hn service.port))
  rw [checkedPort_of_le hn, toStringInt_natCast] at hstart
  have hresult : result = start model resolve config service := by
    rw [hconfig]
    rfl
  rw [hresult]
  exact hstart

/-- A setting on one line. -/
def oneLine (name value : Bytes) (hlength : 0 < name.length ∧ name.length ≤ 49)
    (hhead : name.head? ∉ [some (chr '['), some (chr ';'), some (chr '#')]) (hequals : chr '=' ∉ name)
    (hname : Plain name) (hnameTrimmed : Trimmed name) (hvalue : Plain value)
    (hvalueTrimmed : Trimmed value) : Entry where
  name := name
  first := value
  continuation := []
  name_length := hlength
  name_head := hhead
  name_equals := hequals
  name_plain := hname
  name_trimmed := hnameTrimmed
  first_plain := hvalue
  first_trimmed := hvalueTrimmed
  continuation_ne_nil := by simp
  continuation_head := by simp
  continuation_plain := by simp
  continuation_trimmed := by simp

def initialization : Section where
  name := ascii "Initialization"
  entries :=
    [oneLine (ascii "IPAddress") (ascii "10.0.0.1") (by decide) (by decide) (by decide)
        ⟨by decide, by decide, by decide⟩ ⟨rfl, rfl⟩ ⟨by decide, by decide, by decide⟩ ⟨rfl, rfl⟩,
      oneLine (ascii "ExternalIPAddress") (ascii "10.0.0.2") (by decide) (by decide) (by decide)
        ⟨by decide, by decide, by decide⟩ ⟨rfl, rfl⟩ ⟨by decide, by decide, by decide⟩ ⟨rfl, rfl⟩,
      oneLine (ascii "LocalIPAddress") (ascii "10.0.0.3") (by decide) (by decide) (by decide)
        ⟨by decide, by decide, by decide⟩ ⟨rfl, rfl⟩ ⟨by decide, by decide, by decide⟩ ⟨rfl, rfl⟩,
      oneLine (ascii "Port") (ascii "80") (by decide) (by decide) (by decide)
        ⟨by decide, by decide, by decide⟩ ⟨rfl, rfl⟩ ⟨by decide, by decide, by decide⟩ ⟨rfl, rfl⟩]
  name_length := by decide
  name_bracket := by decide
  name_plain := ⟨by decide, by decide, by decide⟩

/-- No `config.ini`, and a resolver that returns what it is asked. -/
theorem startup_uses_settings_eighty :
    let result := startup .LP64 (fun host port => some (host, port)) none
      (some (render [initialization])) ⟨[], [], 0, none, none⟩
    result.1 = true ∧ result.2.port = 80 ∧
      result.2.externalAddress = some (ascii "10.0.0.2", ascii "80") := by
  have hlength : ∀ line ∈ lines [initialization], (line ++ [chr '\n']).length ≤ 199 := by decide
  have hsets : ∀ (i : Fin 4) (name text : Bytes),
      (settings [initialization])[i.val]?.map keyOf = some (lower (ascii "Initialization." ++ name)) →
      (settings [initialization])[i.val]?.map (·.2.text) = some text →
      Sets [initialization] name text := by
    intro i name text hkey htext
    obtain ⟨setting, hget, hkey⟩ := Option.map_eq_some_iff.mp hkey
    rw [hget] at htext
    exact ⟨setting, List.mem_of_getElem? hget, hkey, Option.some.inj htext⟩
  obtain ⟨-, -, hport, hrunning, haddresses⟩ := startup_uses_settings .LP64
    (fun host port => some (host, port)) none ⟨[], [], 0, none, none⟩ hlength (by decide)
    (hsets 0 (ascii "IPAddress") (ascii "10.0.0.1") (by decide) (by decide))
    (hsets 1 (ascii "ExternalIPAddress") (ascii "10.0.0.2") (by decide) (by decide))
    (hsets 2 (ascii "LocalIPAddress") (ascii "10.0.0.3") (by decide) (by decide))
    (n := 80) (hsets 3 (ascii "Port") (decimal 80) (by decide) (by decide)) (by decide)
  have hrun := hrunning.mpr ⟨rfl, rfl⟩
  exact ⟨hrun, hport, (haddresses hrun).1⟩

end ServerTest.Server
