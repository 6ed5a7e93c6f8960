/-! Text in HTML: character references, tags with attributes, and the frame of a page. -/

namespace Highlighter.Page

/-- The characters that mean something in HTML are written as references. -/
def escapeChar : Char → List Char
  | '&' => "&amp;".toList
  | '<' => "&lt;".toList
  | '>' => "&gt;".toList
  | '"' => "&quot;".toList
  | '\'' => "&#x27;".toList
  | c => [c]

def escape (s : List Char) : List Char := s.flatMap escapeChar

/-- In the value of an attribute the ends of lines are references too, so that it stays on one line of
markup. -/
def attributeChar (c : Char) : List Char := if c == '\n' then "&#10;".toList else escapeChar c

def escapeAttribute (s : List Char) : List Char := s.flatMap attributeChar

/-- An attribute with its value, after a blank. -/
def attributeText (name : String) (value : List Char) : List Char :=
  ' ' :: name.toList ++ ['=', '"'] ++ escapeAttribute value ++ ['"']

/-- A span of text; attributes without a value are left out. -/
def span (attributes : List (String × List Char)) (content : List Char) : List Char :=
  "<span".toList ++
    (attributes.filter fun a => !a.2.isEmpty).flatMap (fun a => attributeText a.1 a.2) ++
    '>' :: content ++ "</span>".toList

def styleSheet : List String :=
  ["",
    "body \x7b background: #1e1e1e; color: #d4d4d4; font-family: sans-serif; margin: 0; \x7d",
    "h1 \x7b font-size: 14px; font-weight: normal; padding: 8px 12px; margin: 0; " ++
      "background: #252526; \x7d",
    "pre \x7b font-family: Menlo, Consolas, monospace; font-size: 13px; line-height: 1.4; " ++
      "margin: 0; padding: 12px; \x7d",
    "pre span:hover \x7b outline: 1px solid #555; \x7d",
    ".columns \x7b display: flex; \x7d",
    ".columns > div \x7b flex: 1; min-width: 0; overflow-x: auto; " ++
      "border-right: 1px solid #333; \x7d",
    ".diff-line \x7b background: rgba(255, 80, 80, 0.12); display: inline-block; " ++
      "min-width: 100%; \x7d",
    ".diff-changed \x7b outline: 1px solid #f14c4c; \x7d",
    ""]

/-- A whole page. -/
def page (title : String) (body : List Char) : List Char :=
  "<!DOCTYPE html>\n<html>\n<head>\n<meta charset=\"utf-8\">\n<title>".toList ++
    escape title.toList ++ "</title>\n<style>".toList ++ ("\n".intercalate styleSheet).toList ++
    "</style>\n</head>\n<body>\n".toList ++ body ++ "\n</body>\n</html>\n".toList

def heading (title : String) : List Char :=
  "<h1>".toList ++ escape title.toList ++ "</h1>".toList

/-- Text that keeps its blanks and lines. -/
def preformatted (content : List Char) : List Char :=
  "<pre>".toList ++ content ++ "</pre>".toList

end Highlighter.Page
