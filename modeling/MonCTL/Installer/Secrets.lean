import MonCTL.Lib.Dict
import MonCTL.Lib.PyValue
import MonCTL.Lib.Template

/-!
# Secrets from the Generator to the Services

A fresh install generates its secrets, writes them to `secrets.env`, and checks and loads that file
before each deploy. The env templates name secrets by placeholders, which are replaced when a file
is put on a host; from there central takes its encryption key.

What is random is an argument of the generator. Texts are lists of characters, and a file is the
list of its lines.
-/

namespace MonCTL.Installer.Secrets

open List

abbrev Text := List Char

/-! ### Random texts -/

/-- The characters of base64, as they are safe in URLs. -/
def urlsafeAlphabet : Text :=
  "ABCDEFGHIJKLMNOPQRSTUVWXYZabcdefghijklmnopqrstuvwxyz0123456789-_".toList

/-- The groups of six bits of a series of bytes; the last one is filled up with zeros. -/
def sixBits : List ℕ → List ℕ
  | [] => []
  | [a] => [a / 4, a % 4 * 16]
  | [a, b] => [a / 4, a % 4 * 16 + b / 16, b % 16 * 4]
  | a :: b :: c :: rest =>
    a / 4 :: (a % 4 * 16 + b / 16) :: (b % 16 * 4 + c / 64) :: c % 64 :: sixBits rest

/-- `secrets.token_urlsafe`: base64 without the padding. -/
def tokenUrlsafe {n : ℕ} (bytes : Fin n → Fin 256) : Text :=
  (sixBits ((List.ofFn bytes).map Fin.val)).map fun i => urlsafeAlphabet.getD i 'A'

/-- What a pronounceable password is drawn from: a consonant and a vowel for each syllable, and a
number. -/
structure Draws where
  syllables : ℕ → Fin 19 × Fin 6
  number : Fin 90

/-- A consonant and a vowel. -/
def syllable (draw : Fin 19 × Fin 6) : Text :=
  ["bcdfghjklmnprstvwxz".toList.getD draw.1 'b', "aeiouy".toList.getD draw.2 'a']

/-- `_pronounceable_password`: syllables until there are enough characters, and two digits. -/
def pronounceablePassword (length : ℕ) (draws : Draws) : Option Text :=
  if length < 8 then none
  else
    let word := (List.range ((length - 1) / 2)).flatMap fun i => syllable (draws.syllables i)
    some (word.take (length - 2) ++ (toString (draws.number.val + 10)).toList)

/-- What the secrets are drawn from. -/
structure Randomness where
  encryptionKey : Fin 32 → Fin 256
  jwtSecretKey : Fin 64 → Fin 256
  collectorApiKey : Fin 32 → Fin 256
  pgPassword : Fin 32 → Fin 256
  pgReplPassword : Fin 32 → Fin 256
  clickhousePassword : Fin 32 → Fin 256
  peerTokenSeed : Fin 32 → Fin 256
  adminPassword : Draws
  supersetSecretKey : Fin 64 → Fin 256
  supersetDbPw : Fin 32 → Fin 256
  supersetAdminPw : Draws
  oauthClientId : Fin 16 → Fin 256
  oauthClientSecret : Fin 48 → Fin 256

/-- `SecretBundle`. -/
structure SecretBundle where
  monctlEncryptionKey : Text
  monctlJwtSecretKey : Text
  monctlCollectorApiKey : Text
  pgPassword : Text
  pgReplPassword : Text
  clickhousePassword : Text
  peerTokenSeed : Text
  monctlAdminPassword : Text
  supersetSecretKey : Text
  supersetDbPw : Text
  supersetAdminPw : Text
  monctlOauthClientId : Text
  monctlOauthClientSecret : Text

/-- `generate_secrets`. -/
def generateSecrets (r : Randomness) : Option SecretBundle := do
  let adminPassword ← pronounceablePassword 20 r.adminPassword
  let supersetAdminPw ← pronounceablePassword 20 r.supersetAdminPw
  some {
    monctlEncryptionKey := tokenUrlsafe r.encryptionKey
    monctlJwtSecretKey := tokenUrlsafe r.jwtSecretKey
    monctlCollectorApiKey := "monctl_col_".toList ++ tokenUrlsafe r.collectorApiKey
    pgPassword := tokenUrlsafe r.pgPassword
    pgReplPassword := tokenUrlsafe r.pgReplPassword
    clickhousePassword := tokenUrlsafe r.clickhousePassword
    peerTokenSeed := tokenUrlsafe r.peerTokenSeed
    monctlAdminPassword := adminPassword
    supersetSecretKey := tokenUrlsafe r.supersetSecretKey
    supersetDbPw := tokenUrlsafe r.supersetDbPw
    supersetAdminPw := supersetAdminPw
    monctlOauthClientId := "superset_".toList ++ tokenUrlsafe r.oauthClientId
    monctlOauthClientSecret := tokenUrlsafe r.oauthClientSecret }

/-! ### The file -/

/-- The variables of `to_env_lines` with their values. The seed is also written under its old name. -/
def SecretBundle.entries (b : SecretBundle) : List (Text × Text) :=
  [("MONCTL_ENCRYPTION_KEY".toList, b.monctlEncryptionKey),
    ("MONCTL_JWT_SECRET_KEY".toList, b.monctlJwtSecretKey),
    ("MONCTL_COLLECTOR_API_KEY".toList, b.monctlCollectorApiKey),
    ("PG_PASSWORD".toList, b.pgPassword),
    ("PG_REPL_PASSWORD".toList, b.pgReplPassword),
    ("CLICKHOUSE_PASSWORD".toList, b.clickhousePassword),
    ("PEER_TOKEN_SEED".toList, b.peerTokenSeed),
    ("PEER_TOKEN".toList, b.peerTokenSeed),
    ("MONCTL_ADMIN_PASSWORD".toList, b.monctlAdminPassword),
    ("SUPERSET_SECRET_KEY".toList, b.supersetSecretKey),
    ("SUPERSET_DB_PW".toList, b.supersetDbPw),
    ("SUPERSET_ADMIN_PW".toList, b.supersetAdminPw),
    ("MONCTL_OAUTH_CLIENT_ID".toList, b.monctlOauthClientId),
    ("MONCTL_OAUTH_CLIENT_SECRET".toList, b.monctlOauthClientSecret)]

/-- The names of the variables. -/
def fileKeys : List Text :=
  ["MONCTL_ENCRYPTION_KEY", "MONCTL_JWT_SECRET_KEY", "MONCTL_COLLECTOR_API_KEY", "PG_PASSWORD",
    "PG_REPL_PASSWORD", "CLICKHOUSE_PASSWORD", "PEER_TOKEN_SEED", "PEER_TOKEN",
    "MONCTL_ADMIN_PASSWORD", "SUPERSET_SECRET_KEY", "SUPERSET_DB_PW", "SUPERSET_ADMIN_PW",
    "MONCTL_OAUTH_CLIENT_ID", "MONCTL_OAUTH_CLIENT_SECRET"].map String.toList

/-- `to_env_lines`. -/
def SecretBundle.toEnvLines (b : SecretBundle) : List Text :=
  b.entries.map fun e => e.1 ++ '=' :: e.2

/-- `secrets.env`: its lines, its mode and its owner. -/
structure SecretsFile where
  lines : List Text
  mode : ℕ
  uid : ℕ

/-- What is wrong with the file. -/
inductive SecretsFileError
  | missing
  | mode
  | owner
  | malformed (line : Text)
  | missingKey (key : Text)
  | placeholder (key : Text)
  deriving DecidableEq

/-- `write_secrets`, of a file that is not there yet. -/
def writeSecrets (b : SecretBundle) (uid : ℕ) : SecretsFile where
  lines :=
    ["# MonCTL cluster secrets — generated by `monctl_ctl init`.".toList,
      ("# DO NOT COMMIT. DO NOT SHARE. DO NOT ROTATE MONCTL_ENCRYPTION_KEY " ++
        "without a planned migration.").toList] ++ b.toEnvLines
  mode := 0o600
  uid := uid

/-- `str.strip`. -/
def strip (text : Text) : Text :=
  ((text.dropWhile isPySpace).reverse.dropWhile isPySpace).reverse

/-- One line of `load_secrets`. -/
def loadLine (result : Dict Text Text) (raw : Text) : Except SecretsFileError (Dict Text Text) :=
  let line := strip raw
  if line = [] ∨ line.head? = some '#' then .ok result
  else if '=' ∉ line then .error (.malformed raw)
  else
    let key := line.takeWhile (· ≠ '=')
    let value := (line.dropWhile (· ≠ '=')).drop 1
    .ok (result.set (strip key) (strip value))

/-- `load_secrets`. -/
def loadSecrets (lines : List Text) : Except SecretsFileError (Dict Text Text) :=
  lines.foldlM loadLine []

/-- `bundle_fieldnames` with `_field_to_env_key`. -/
def envKeys : List Text :=
  ["MONCTL_ENCRYPTION_KEY", "MONCTL_JWT_SECRET_KEY", "MONCTL_COLLECTOR_API_KEY", "PG_PASSWORD",
    "PG_REPL_PASSWORD", "CLICKHOUSE_PASSWORD", "PEER_TOKEN_SEED", "MONCTL_ADMIN_PASSWORD",
    "SUPERSET_SECRET_KEY", "SUPERSET_DB_PW", "SUPERSET_ADMIN_PW", "MONCTL_OAUTH_CLIENT_ID",
    "MONCTL_OAUTH_CLIENT_SECRET"].map String.toList

/-- `_LEGACY_ENV_KEY_ALIASES`. -/
def legacyEnvKeys (key : Text) : List Text :=
  if key = "PEER_TOKEN_SEED".toList then ["PEER_TOKEN".toList] else []

/-- `PLACEHOLDER_VALUES`. -/
def placeholderValues : List Text := ["", "CHANGEME", "TODO", "REPLACE_ME"].map String.toList

/-- A key that is to be there. -/
def validateKey (data : Dict Text Text) (key : Text) : Except SecretsFileError Unit :=
  match (key :: legacyEnvKeys key).findSome? data.get? with
  | none => .error (.missingKey key)
  | some value => if value ∈ placeholderValues then .error (.placeholder key) else .ok ()

/-- `validate_secrets_file`. -/
def validateSecretsFile (uid : ℕ) : Option SecretsFile → Except SecretsFileError Unit
  | none => .error .missing
  | some file =>
    if file.mode ≠ 0o600 then .error .mode
    else if file.uid ≠ uid then .error .owner
    else do
      let data ← loadSecrets file.lines
      envKeys.forM (validateKey data)

/-! ### The services -/

/-- `_materialise_env`. -/
def materialiseEnv (secretValues : Dict Text Text) (templateRendered : Text) : Text :=
  secretValues.foldl (fun out e => replaceAll (placeholder e.1) e.2 out) templateRendered

/-- The value of a hexadecimal digit. -/
def hexValue (c : Char) : Option ℕ :=
  if c.isDigit then some (c.toNat - 48)
  else if 'a' ≤ c ∧ c ≤ 'f' then some (c.toNat - 87)
  else if 'A' ≤ c ∧ c ≤ 'F' then some (c.toNat - 55)
  else none

/-- White space that `bytes.fromhex` skips. -/
def isAsciiSpace (c : Char) : Bool := c = ' ' || (9 ≤ c.toNat && c.toNat ≤ 13)

/-- `bytes.fromhex`: two digits for each byte, with white space between bytes. -/
def fromHex : Text → Option (List ℕ)
  | [] => some []
  | [c] => if isAsciiSpace c then some [] else none
  | c :: d :: rest =>
    if isAsciiSpace c then fromHex (d :: rest)
    else
      match hexValue c, hexValue d, fromHex rest with
      | some hi, some lo, some bytes => some ((hi * 16 + lo) :: bytes)
      | _, _, _ => none

/-- Why a key is turned down. -/
inductive KeyError
  | notSet
  | notHex
  | length (n : ℕ)
  deriving DecidableEq

/-- `_get_key`. -/
def getKey (encryptionKey : Text) : Except KeyError (List ℕ) :=
  if encryptionKey = [] then .error .notSet
  else
    match fromHex encryptionKey with
    | none => .error .notHex
    | some bytes => if bytes.length ≠ 32 then .error (.length bytes.length) else .ok bytes

/-- An env template as it is rendered: its placeholders name variables of the file. -/
structure EnvTemplate where
  pieces : List Piece
  plain : ∀ p ∈ pieces, p.Plain
  keys : ∀ key, .hole key ∈ pieces → key ∈ fileKeys

def EnvTemplate.filled (t : EnvTemplate) (b : SecretBundle) : Text :=
  templateChars (t.pieces.map (Piece.fillAll b.entries))

/-- The line of `central.env` with the encryption key. -/
def encryptionKeyLine : EnvTemplate where
  pieces := [.text "MONCTL_ENCRYPTION_KEY=".toList, .hole "MONCTL_ENCRYPTION_KEY".toList]
  plain p hp := by
    rw [mem_cons, mem_singleton] at hp
    rcases hp with rfl | rfl
    · exact show '$' ∉ "MONCTL_ENCRYPTION_KEY=".toList by decide
    · exact show '$' ∉ "MONCTL_ENCRYPTION_KEY".toList ∧ '}' ∉ "MONCTL_ENCRYPTION_KEY".toList by decide
  keys key hkey := by
    rw [mem_cons, mem_singleton] at hkey
    rcases hkey with hkey | hkey
    · cases hkey
    · exact Piece.hole.inj hkey ▸ by decide

def centralEncryptionKey (secretValues : Dict Text Text) : Text :=
  ((materialiseEnv secretValues (templateChars encryptionKeyLine.pieces)).dropWhile
    (· ≠ '=')).drop 1

/-- **A bundle is delivered**: its file is valid and can be loaded; every template then has exactly
the values of the bundle and no placeholder; and central accepts its encryption key. -/
def Delivers (b : SecretBundle) (uid : ℕ) : Prop :=
  validateSecretsFile uid (some (writeSecrets b uid)) = .ok () ∧
    ∃ secretValues, loadSecrets (writeSecrets b uid).lines = .ok secretValues ∧ (∀ t : EnvTemplate,
        materialiseEnv secretValues (templateChars t.pieces) = t.filled b ∧
          ∀ p ∈ t.pieces.map (Piece.fillAll b.entries), ∀ key, p ≠ .hole key) ∧
      ∃ key, getKey (centralEncryptionKey secretValues) = .ok key

/-! ### What is generated -/

/-- A letter, a digit, a hyphen or an underscore. -/
def isSafe (c : Char) : Bool := c.isAlphanum || c = '-' || c = '_'

/-- A text of safe characters, too long for a dummy value. -/
structure Sound (value : Text) : Prop where
  safe : ∀ c ∈ value, isSafe c = true
  long : 10 < value.length

theorem length_sixBits (bytes : List ℕ) : (sixBits bytes).length = (bytes.length * 4 + 2) / 3 := by
  induction bytes using sixBits.induct with
  | case1 => rfl
  | case2 a => simp [sixBits]
  | case3 a b => simp [sixBits]
  | case4 a b c rest ih =>
    simp only [sixBits, length_cons, ih]
    omega

variable {n : ℕ} (bytes : Fin n → Fin 256)

theorem length_tokenUrlsafe :
    (tokenUrlsafe bytes).length = (n * 4 + 2) / 3 := by
  rw [tokenUrlsafe, length_map, length_sixBits, length_map, length_ofFn]

theorem getD_mem {α : Type} {l : List α} {i : ℕ} {d : α} (hd : d ∈ l) : l.getD i d ∈ l := by
  rw [getD_eq_getElem?_getD]
  cases hi : l[i]? with
  | none => exact hd
  | some a => exact mem_of_getElem? hi

theorem safe_tokenUrlsafe :
    ∀ c ∈ tokenUrlsafe bytes, isSafe c = true := by
  have halphabet : urlsafeAlphabet.all isSafe = true := rfl
  have hfirst : 'A' ∈ urlsafeAlphabet := mem_of_mem_head? rfl
  intro c hc
  rw [tokenUrlsafe, mem_map] at hc
  obtain ⟨i, -, rfl⟩ := hc
  exact List.all_eq_true.1 halphabet _ (getD_mem hfirst)

theorem sound_tokenUrlsafe (hn : 8 ≤ n) : Sound (tokenUrlsafe bytes) := by
  refine ⟨safe_tokenUrlsafe bytes, ?_⟩
  rw [length_tokenUrlsafe]
  omega

theorem Sound.append {value : Text} (h : Sound value) {before : Text}
    (hsafe : before.all isSafe = true) : Sound (before ++ value) := by
  refine ⟨fun c hc => ?_, ?_⟩
  · rcases List.mem_append.1 hc with hc | hc
    · exact List.all_eq_true.1 hsafe c hc
    · exact h.safe c hc
  · have := h.long
    rw [length_append]
    omega

theorem safe_syllable (draw : Fin 19 × Fin 6) : ∀ c ∈ syllable draw, isSafe c = true := by
  have hconsonants : "bcdfghjklmnprstvwxz".toList.all isSafe = true := rfl
  have hvowels : "aeiouy".toList.all isSafe = true := rfl
  intro c hc
  rw [syllable, mem_cons, mem_singleton] at hc
  rcases hc with rfl | rfl
  · exact List.all_eq_true.1 hconsonants _ (getD_mem (mem_of_mem_head? rfl))
  · exact List.all_eq_true.1 hvowels _ (getD_mem (mem_of_mem_head? rfl))

theorem sound_pronounceablePassword (draws : Draws) :
    ∃ password, pronounceablePassword 20 draws = some password ∧ Sound password := by
  have hnumber : ∀ n : Fin 90, (toString (n.val + 10)).toList.all isSafe = true := by decide +kernel
  have hlength : ((List.range 9).flatMap fun i => syllable (draws.syllables i)).length = 18 := rfl
  refine ⟨_, rfl, fun c hc => ?_, ?_⟩
  · rcases List.mem_append.1 hc with hc | hc
    · obtain ⟨i, -, hc⟩ := List.mem_flatMap.1 (mem_of_mem_take hc)
      exact safe_syllable _ c hc
    · exact List.all_eq_true.1 (hnumber draws.number) c hc
  · rw [length_append, length_take, hlength]
    omega

theorem generateSecrets_eq (r : Randomness) : ∃ b, generateSecrets r = some b ∧
    b.monctlEncryptionKey = tokenUrlsafe r.encryptionKey ∧ ∀ e ∈ b.entries, Sound e.2 := by
  obtain ⟨adminPassword, hadmin, hadminSound⟩ := sound_pronounceablePassword r.adminPassword
  obtain ⟨supersetAdminPw, hsuperset, hsupersetSound⟩ :=
    sound_pronounceablePassword r.supersetAdminPw
  refine ⟨_, by rw [generateSecrets, hadmin, hsuperset]; rfl, rfl, fun e he => ?_⟩
  simp only [SecretBundle.entries, mem_cons, not_mem_nil, or_false] at he
  rcases he with rfl | rfl | rfl | rfl | rfl | rfl | rfl | rfl | rfl | rfl | rfl | rfl | rfl | rfl
  · exact sound_tokenUrlsafe _ (by decide)
  · exact sound_tokenUrlsafe _ (by decide)
  · exact (sound_tokenUrlsafe _ (by decide)).append rfl
  · exact sound_tokenUrlsafe _ (by decide)
  · exact sound_tokenUrlsafe _ (by decide)
  · exact sound_tokenUrlsafe _ (by decide)
  · exact sound_tokenUrlsafe _ (by decide)
  · exact sound_tokenUrlsafe _ (by decide)
  · exact hadminSound
  · exact sound_tokenUrlsafe _ (by decide)
  · exact sound_tokenUrlsafe _ (by decide)
  · exact hsupersetSound
  · exact (sound_tokenUrlsafe _ (by decide)).append rfl
  · exact sound_tokenUrlsafe _ (by decide)

/-! ### The file gives it back -/

theorem isSafe_ascii {c : Char} (h : isSafe c = true) : c.toNat < 128 := by
  have hbound {b : UInt32} (hb : b.toNat < 128) (hle : c.val ≤ b) : c.toNat < 128 :=
    Nat.lt_of_le_of_lt (UInt32.le_iff_toNat_le.1 hle) hb
  have hcases : ((((decide (c.val ≥ 'A'.val ∧ c.val ≤ 'Z'.val) ||
      (decide (c.val ≥ 'a'.val) && decide (c.val ≤ 'z'.val))) ||
      (decide (c.val ≥ '0'.val) && decide (c.val ≤ '9'.val))) ||
      decide (c = '-')) || decide (c = '_')) = true := h
  simp only [Bool.or_eq_true, Bool.and_eq_true, decide_eq_true_eq] at hcases
  rcases hcases with (((⟨-, hle⟩ | ⟨-, hle⟩) | ⟨-, hle⟩) | rfl) | rfl
  · exact hbound (by decide) hle
  · exact hbound (by decide) hle
  · exact hbound (by decide) hle
  · decide
  · decide

theorem isSafe_plain {c : Char} (h : isSafe c = true) :
    isPySpace c = false ∧ c ≠ '#' ∧ c ≠ '=' ∧ c ≠ '$' ∧ c ≠ '}' ∧ isAsciiSpace c = false := by
  have hascii : ∀ n : Fin 128, isSafe (Char.ofNat n) = true →
      isPySpace (Char.ofNat n) = false ∧ Char.ofNat n ≠ '#' ∧ Char.ofNat n ≠ '=' ∧
        Char.ofNat n ≠ '$' ∧ Char.ofNat n ≠ '}' ∧ isAsciiSpace (Char.ofNat n) = false := by
    decide +kernel
  have hc := hascii ⟨c.toNat, isSafe_ascii h⟩
  rw [Char.ofNat_toNat] at hc
  exact hc h

variable {text : Text}

theorem strip_eq (hhead : ∀ c ∈ text.head?, isPySpace c = false)
    (hlast : ∀ c ∈ text.getLast?, isPySpace c = false) : strip text = text := by
  have hdrop {cs : Text} (h : ∀ c ∈ cs.head?, isPySpace c = false) : cs.dropWhile isPySpace = cs := by
    cases cs with
    | nil => rfl
    | cons c cs =>
      refine dropWhile_cons_of_neg ?_
      rw [h c rfl]
      exact Bool.false_ne_true
  rw [strip, hdrop hhead, hdrop (by rwa [head?_reverse]), reverse_reverse]

theorem strip_of_safe (h : ∀ c ∈ text, isSafe c = true) : strip text = text :=
  strip_eq (fun c hc => (isSafe_plain (h c (mem_of_head? hc))).1)
    fun c hc => (isSafe_plain (h c (mem_of_getLast? hc))).1

theorem loadLine_variable (result : Dict Text Text) {key value : Text}
    (hkey : ∀ c ∈ key, isSafe c = true) (hne : key ≠ [])
    (hvalue : ∀ c ∈ value, isSafe c = true) (hne' : value ≠ []) :
    loadLine result (key ++ '=' :: value) = .ok (result.set key value) := by
  have hbefore : ∀ c ∈ key, c ≠ '=' := fun c hc => (isSafe_plain (hkey c hc)).2.2.1
  have hstrip : strip (key ++ '=' :: value) = key ++ '=' :: value := by
    refine strip_eq (fun c hc => ?_) fun c hc => ?_
    · rw [head?_append_of_ne_nil _ hne] at hc
      exact (isSafe_plain (hkey c (mem_of_head? hc))).1
    · rw [getLast?_append_of_ne_nil _ (cons_ne_nil _ _),
        getLast?_cons_of_ne_nil hne'] at hc
      exact (isSafe_plain (hvalue c (mem_of_getLast? hc))).1
  have hcomment : ¬(key ++ '=' :: value = [] ∨ (key ++ '=' :: value).head? = some '#') := by
    rintro (hnil | hhash)
    · exact hne (List.append_eq_nil_iff.1 hnil).1
    · rw [head?_append_of_ne_nil _ hne] at hhash
      exact (isSafe_plain (hkey _ (mem_of_head? hhash))).2.1 rfl
  have htake : (key ++ '=' :: value).takeWhile (· ≠ '=') = key := by
    rw [takeWhile_append_of_pos (by simpa using hbefore), takeWhile_cons_of_neg (by simp),
      append_nil]
  have hdrop : ((key ++ '=' :: value).dropWhile (· ≠ '=')).drop 1 = value := by
    rw [dropWhile_append_of_pos (by simpa using hbefore), dropWhile_cons_of_neg (by simp)]
    rfl
  rw [loadLine, hstrip]
  dsimp only
  rw [if_neg hcomment, if_neg (by simp), htake, hdrop, strip_of_safe hkey, strip_of_safe hvalue]

theorem keys_entries (b : SecretBundle) : b.entries.map Prod.fst = fileKeys := rfl

theorem fileKeys_safe : fileKeys.Nodup ∧
    ∀ key ∈ fileKeys, (∀ c ∈ key, isSafe c = true) ∧ key ≠ [] := by
  have hall : fileKeys.Nodup ∧ ∀ key ∈ fileKeys, key.all isSafe = true ∧ key ≠ [] := by
    decide +kernel
  refine ⟨hall.1, fun key hkey => ?_⟩
  obtain ⟨hsafe, hne⟩ := hall.2 key hkey
  exact ⟨List.all_eq_true.1 hsafe, hne⟩

variable {b : SecretBundle}

theorem mem_fileKeys {e : Text × Text} (he : e ∈ b.entries) : e.1 ∈ fileKeys :=
  keys_entries b ▸ mem_map_of_mem he

theorem foldlM_loadLine {entries : List (Text × Text)} (result : Dict Text Text)
    (hkeys : ∀ e ∈ entries, (∀ c ∈ e.1, isSafe c = true) ∧ e.1 ≠ [])
    (hvalues : ∀ e ∈ entries, Sound e.2) :
    (entries.map fun e => e.1 ++ '=' :: e.2).foldlM loadLine result =
      .ok (result.setAll entries) := by
  induction entries generalizing result with
  | nil => rfl
  | cons e entries ih =>
    obtain ⟨hkey, hne⟩ := hkeys e mem_cons_self
    have hvalue := hvalues e mem_cons_self
    have hne' : e.2 ≠ [] := by
      intro hnil
      have hlong := hvalue.long
      rw [hnil] at hlong
      exact absurd hlong (by decide)
    rw [map_cons, foldlM_cons, loadLine_variable result hkey hne hvalue.safe hne']
    exact ih _ (fun e' he' => hkeys e' (mem_cons_of_mem e he'))
      fun e' he' => hvalues e' (mem_cons_of_mem e he')

/-- **The file gives back what was generated.** -/
theorem loadSecrets_writeSecrets (hsound : ∀ e ∈ b.entries, Sound e.2)
    (uid : ℕ) : loadSecrets (writeSecrets b uid).lines = .ok b.entries := by
  have hcomments : (["# MonCTL cluster secrets — generated by `monctl_ctl init`.".toList,
      ("# DO NOT COMMIT. DO NOT SHARE. DO NOT ROTATE MONCTL_ENCRYPTION_KEY " ++
        "without a planned migration.").toList] : List Text).foldlM loadLine [] = .ok [] := by
    decide +kernel
  rw [loadSecrets, writeSecrets, foldlM_append, hcomments]
  refine (foldlM_loadLine [] (fun e he => fileKeys_safe.2 e.1 (mem_fileKeys he)) hsound).trans ?_
  have hnodup : (Dict.keys ([] : Dict Text Text) ++ b.entries.map Prod.fst).Nodup := fileKeys_safe.1
  rw [Dict.setAll_of_nodup hnodup, nil_append]

/-! ### What the services get -/

/-- **Every variable has exactly the generated value.** -/
theorem materialiseEnv_chars (hsound : ∀ e ∈ b.entries, Sound e.2)
    (t : EnvTemplate) : materialiseEnv b.entries (templateChars t.pieces) = t.filled b := by
  refine foldl_replaceAll_chars (fun e he => ⟨fun hin => ?_, fun hin => ?_⟩) t.plain
  · exact (isSafe_plain ((fileKeys_safe.2 e.1 (mem_fileKeys he)).1 _ hin)).2.2.2.2.1 rfl
  · exact (isSafe_plain ((hsound e he).safe _ hin)).2.2.2.1 rfl

theorem length_of_fromHex (hspace : ∀ c ∈ text, isAsciiSpace c = false)
    {bytes : List ℕ} (h : fromHex text = some bytes) : text.length = 2 * bytes.length := by
  fun_induction fromHex text generalizing bytes with
  | case1 =>
    cases h
    rfl
  | case2 c hc =>
    rw [hspace c mem_cons_self] at hc
    cases hc
  | case3 c hc => cases h
  | case4 c d rest hc ih =>
    rw [hspace c mem_cons_self] at hc
    cases hc
  | case5 c d rest hc hi lo bytes' hbytes hhi hlo ih =>
    cases h
    have hrest := ih
      (fun c' hc' => hspace c' (mem_cons_of_mem c (mem_cons_of_mem d hc'))) hbytes
    simp only [length_cons, hrest]
    omega
  | case6 => cases h

/-- **Central turns the encryption key down**: it has 43 characters, and each byte takes two. -/
theorem getKey_encryptionKey (bytes : Fin 32 → Fin 256) :
    getKey (tokenUrlsafe bytes) = .error .notHex := by
  have hlength : (tokenUrlsafe bytes).length = 43 := length_tokenUrlsafe bytes
  have hne : tokenUrlsafe bytes ≠ [] := by
    intro hnil
    rw [hnil] at hlength
    cases hlength
  rw [getKey, if_neg hne]
  cases hhex : fromHex (tokenUrlsafe bytes) with
  | none => rfl
  | some key =>
    have heven := length_of_fromHex
      (fun c hc => (isSafe_plain (safe_tokenUrlsafe bytes c hc)).2.2.2.2.2) hhex
    omega

theorem centralEncryptionKey_entries (hsound : ∀ e ∈ b.entries, Sound e.2) :
    centralEncryptionKey b.entries = b.monctlEncryptionKey := by
  rw [centralEncryptionKey, materialiseEnv_chars hsound]
  have hname : "MONCTL_ENCRYPTION_KEY=".toList = "MONCTL_ENCRYPTION_KEY".toList ++ ['='] := rfl
  have hfilled : encryptionKeyLine.filled b =
      "MONCTL_ENCRYPTION_KEY".toList ++ '=' :: b.monctlEncryptionKey := by
    simp only [EnvTemplate.filled, encryptionKeyLine, map_cons, map_nil, Piece.fillAll,
      SecretBundle.entries, find?_cons_of_pos, decide_true, templateChars, flatMap_cons,
      flatMap_nil, Piece.chars, append_nil]
    rw [hname, append_assoc, singleton_append]
  rw [hfilled, dropWhile_append_of_pos (by simp), dropWhile_cons_of_neg (by simp)]
  rfl

theorem not_delivers_of_token {bytes : Fin 32 → Fin 256}
    (hkey : b.monctlEncryptionKey = tokenUrlsafe bytes) (hsound : ∀ e ∈ b.entries, Sound e.2)
    (uid : ℕ) : ¬Delivers b uid := by
  rintro ⟨-, secretValues, hload, -, key, hget⟩
  rw [loadSecrets_writeSecrets hsound] at hload
  obtain rfl := Except.ok.inj hload
  rw [centralEncryptionKey_entries hsound, hkey, getKey_encryptionKey] at hget
  cases hget

/-- **No bundle is delivered.** -/
theorem not_delivers (r : Randomness) (uid : ℕ) :
    ∃ b, generateSecrets r = some b ∧ ¬Delivers b uid := by
  obtain ⟨b, hb, hkey, hsound⟩ := generateSecrets_eq r
  exact ⟨b, hb, not_delivers_of_token hkey hsound uid⟩

/-- A bundle of zeros. -/
def zeros : Randomness where
  encryptionKey _ := 0
  jwtSecretKey _ := 0
  collectorApiKey _ := 0
  pgPassword _ := 0
  pgReplPassword _ := 0
  clickhousePassword _ := 0
  peerTokenSeed _ := 0
  adminPassword := ⟨fun _ => (0, 0), 0⟩
  supersetSecretKey _ := 0
  supersetDbPw _ := 0
  supersetAdminPw := ⟨fun _ => (0, 0), 0⟩
  oauthClientId _ := 0
  oauthClientSecret _ := 0

/-- **A key that is no hexadecimal text**: the bundle that is drawn as zeros only. -/
theorem not_delivers_zeros : ¬∀ r uid, ∀ b ∈ generateSecrets r, Delivers b uid := by
  intro hall
  obtain ⟨b, hb, hkey, hsound⟩ := generateSecrets_eq zeros
  exact not_delivers_of_token hkey hsound 0 (hall zeros 0 b hb)

end MonCTL.Installer.Secrets
