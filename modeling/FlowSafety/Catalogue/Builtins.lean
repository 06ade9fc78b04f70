import FlowSafety.Catalogue.Basic

/-!
# The built-in catalogue

The sanitizers and numeric helpers that are most often seen between a source and a sink, under the
names that common frameworks give them.
-/

namespace FlowSafety.Catalogue

/-- Names with an effect in common. -/
def all (effect : Effect) (names : List String) : List (String × Effect) :=
  names.map fun name => (name, effect)

/-! ## Escaping -/

def htmlEscapes : List (String × Effect) :=
  all (.text (.escape .html))
      ["escapeHtml", "Sanitizer.escapeHtml", "StringEscapeUtils.escapeHtml4",
        "StringEscapeUtils.escapeHtml3", "StringEscapeUtils.escapeXml11", "HtmlUtils.htmlEscape",
        "Encode.forHtml", "Encode.forHtmlContent", "Encode.forXml",
        "ESAPI.encoder().encodeForHTML", "HttpUtility.HtmlEncode", "WebUtility.HtmlEncode",
        "AntiXssEncoder.HtmlEncode", "html.escape", "markupsafe.escape", "escape-html"] ++
    all (.text (.escape .htmlAttribute))
      ["Encode.forHtmlAttribute", "Encode.forXmlAttribute",
        "ESAPI.encoder().encodeForHTMLAttribute", "HttpUtility.HtmlAttributeEncode"]

def scriptEscapes : List (String × Effect) :=
  all (.text (.escape .script))
    ["Encode.forJavaScript", "Encode.forJavaScriptBlock", "StringEscapeUtils.escapeEcmaScript",
      "ESAPI.encoder().encodeForJavaScript", "HttpUtility.JavaScriptStringEncode",
      "JavaScriptEncoder.Default.Encode"]

def urlEncoders : List (String × Effect) :=
  all (.text (.escape .url))
    ["URLEncoder.encode", "Encode.forUriComponent", "ESAPI.encoder().encodeForURL",
      "HttpUtility.UrlEncode", "Uri.EscapeDataString", "urllib.parse.quote", "encodeURIComponent"]

def cssEscapes : List (String × Effect) :=
  all (.text (.escape .css))
    ["Encode.forCssString", "Encode.forCssUrl", "ESAPI.encoder().encodeForCSS", "CSS.escape"]

/-! ## Formatting -/

def formatters : List (String × Effect) :=
  all (.text (.numericFormat 10))
      ["Integer.toString", "String.valueOf", "Long.toString", "Int32.ToString", "str"] ++
    all (.text (.numericFormat 16)) ["Integer.toHexString", "Long.toHexString"] ++
    all (.text .digitFilter)
      ["extractNumeric", "Sanitizer.extractNumeric", "CharMatcher.digit().retainFrom",
        "StringUtils.getDigits"] ++
    all (.text (.allowList (.ofList ["true", "false"])))
      ["Boolean.toString", "Boolean.parseBoolean"]

/-! ## Redaction -/

def redactions : List (String × Effect) :=
  all (.text (.mask 4 '*')) ["mask", "Sanitizer.mask", "maskLast4", "StringUtils.right"] ++
    all (.text (.mask 0 '*')) ["StringUtils.overlay"] ++
    all (.text (.digest .hex 64)) ["DigestUtils.sha256Hex", "hashlib.sha256().hexdigest"] ++
    all (.text (.digest .hex 40)) ["DigestUtils.sha1Hex"] ++
    all (.text (.digest .hex 32)) ["DigestUtils.md5Hex"] ++
    all (.text (.digest .base64 44)) ["Convert.ToBase64String(SHA256.HashData)"]

/-! ## Cutting, joining and case -/

def passThroughs : List (String × Effect) :=
  all (.text (.passThrough none))
      ["substring", "String.substring", "Substring", "concat", "String.concat", "String.format",
        "trim"] ++
    all (.text (.passThrough (some 20))) ["StringUtils.abbreviate"] ++
    all (.text (.caseMap true))
      ["toLowerCase", "String.toLowerCase", "ToLowerInvariant", "str.lower"] ++
    all (.text (.caseMap false))
      ["toUpperCase", "String.toUpperCase", "ToUpperInvariant", "str.upper"]

/-! ## Numeric helpers -/

/-- An operator under another name. -/
def operator (o : Operator) : Effect := .numeric (.builtin o)

def numericHelpers : List (String × Effect) :=
  all (operator .min) ["Math.min", "Math.Min", "min"] ++
    all (operator .max) ["Math.max", "Math.Max", "max"] ++
    all (operator .abs) ["Math.abs", "Math.Abs", "abs"] ++
    all (operator .rem) ["Math.floorMod"] ++
    all (operator .neg) ["Math.negateExact"] ++
    all (operator .clamp) ["Math.Clamp", "Sanitizer.bound"] ++
    all (operator (.parseInt .i8)) ["Byte.parseByte"] ++
    all (operator (.parseInt .i16)) ["Short.parseShort"] ++
    all (operator (.parseInt .i32))
      ["Integer.parseInt", "Integer.valueOf", "Sanitizer.toInt", "int.Parse", "parseInt"] ++
    all (operator (.parseInt .i64)) ["Long.parseLong", "Sanitizer.toLong", "int"] ++
    all (operator .length) ["String.length"]

/-- The built-in transforms. -/
def builtins : Catalogue :=
  ofList (htmlEscapes ++ scriptEscapes ++ urlEncoders ++ cssEscapes ++ formatters ++ redactions ++
    passThroughs ++ numericHelpers)

end FlowSafety.Catalogue
