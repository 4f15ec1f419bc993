import TypedClient.Client.Method
import TypedClient.Package.JsonText

/-!
# `TypedClient.Package.Files`: the texts of a client package

Each function is the text of one file of the package: declarations, client, transport,
index, package manifest, compiler settings and readme.
-/

set_option autoImplicit false

namespace TypedClient.Package

/-- Lines with a line feed after each. -/
def unlines (lines : List String) : String :=
  String.join (lines.map (· ++ "\n"))

/-- What several files say about the package. -/
structure Summary where
  title : String
  version : String
  packageName : String
  methodCount : Nat
  typeCount : Nat

/-- The title of a document, or what is said instead. -/
def titleOr (title fallback : String) : String := if title = "" then fallback else title

/-- The version after a title, if there is one. -/
def versionSuffix (version : String) : String := if version = "" then "" else " " ++ version

def generatedLine : String := " * Generated by tsclientgen. Do not edit by hand."

/-- The declaration of a type, with its comment. -/
def declarationText (d : Declaration) : String :=
  unlines ([""] ++ (if d.doc.isEmpty then [] else [Comment.block "" d.doc]) ++
    [match d.kind with
      | .interface => "export interface " ++ d.name ++ " " ++ d.body
      | .typeAlias => "export type " ++ d.name ++ " = " ++ d.body ++ ";"])

/-- The file of type declarations. -/
def typesText (c : TypesContext) : String :=
  unlines [
    "/**",
    " * Type declarations for " ++ titleOr c.title "the API" ++ versionSuffix c.version ++ ".",
    " *",
    generatedLine,
    " */"] ++
  String.join (c.declarations.map declarationText) ++
  (if c.declarations.isEmpty then unlines ["", "export \x7b\x7d;"] else "")

/-- A method of the client class. -/
def methodText (m : Method) : String :=
  unlines [
    "",
    Comment.block "  " m.doc,
    "  async " ++ m.name ++ "(" ++ m.signature ++ "): Promise<" ++ m.returnType ++ "> \x7b",
    "    const response = await this.http." ++ m.verb ++ "(" ++ m.callArguments ++ ");",
    "    return response.data;",
    "  \x7d"]

/-- The file of the client class. -/
def clientText (c : ClientContext) : String :=
  let version := if c.version = "" then "" else " (" ++ c.version ++ ")"
  unlines ([
    "/**",
    " * " ++ titleOr c.title "API" ++ " client" ++ version ++ "."] ++
    c.description.map (Comment.blockLine "") ++ [
    " *",
    generatedLine,
    " */",
    "",
    "import type \x7b " ++ c.transport ++ " \x7d from " ++ textLiteral c.httpClientImport ++ ";"] ++
    (if c.typeImports.isEmpty then [] else
      ["import type \x7b"] ++ c.typeImports.map (fun name => "  " ++ name ++ ",") ++
      ["\x7d from " ++ textLiteral c.typesImport ++ ";"]) ++ [
    "",
    "export class " ++ c.clientClass ++ " \x7b",
    "  constructor(",
    "    private readonly http: " ++ c.transport ++ ",",
    "    private readonly baseUrl: string = " ++ c.baseUrl ++ ",",
    "  ) \x7b\x7d"]) ++
  String.join (c.methods.map methodText) ++ "\x7d\n"

/-- The file of the transport interface. -/
def transportText : String :=
  unlines [
    "/**",
    " * Transport used by " ++ clientClass ++ ".",
    " *",
    " * Implement " ++ transportInterface ++ " with the HTTP library of your choice and pass it",
    " * to the " ++ clientClass ++ " constructor.",
    " */",
    "",
    "export interface RequestOptions \x7b",
    "  params?: Record<string, any>;",
    "  headers?: Record<string, any>;",
    "  [key: string]: any;",
    "\x7d",
    "",
    "export interface HttpResponse<T = any> \x7b",
    "  data: T;",
    "\x7d",
    "",
    "export interface " ++ transportInterface ++ " \x7b",
    "  get(url: string, options?: RequestOptions): Promise<HttpResponse>;",
    "  post(url: string, data?: any, options?: RequestOptions): Promise<HttpResponse>;",
    "  put(url: string, data?: any, options?: RequestOptions): Promise<HttpResponse>;",
    "  delete(url: string, options?: RequestOptions): Promise<HttpResponse>;",
    "  patch(url: string, data?: any, options?: RequestOptions): Promise<HttpResponse>;",
    "\x7d"]

/-- The index of the package. The transport is exported whole if the package holds it,
and by its name if another package does. -/
def indexText (typesImport clientImport httpClientImport : String) (transportIsLocal : Bool) :
    String :=
  unlines [
    "export * from " ++ textLiteral typesImport ++ ";",
    "export * from " ++ textLiteral clientImport ++ ";",
    (if transportIsLocal then "export * from "
      else "export type \x7b " ++ transportInterface ++ " \x7d from ") ++
      textLiteral httpClientImport ++ ";"]

/-- The manifest of the package. -/
def manifestText (s : Summary) : String :=
  let version := if s.version = "" then "0.1.0" else s.version
  unlines [
    "\x7b",
    "  \"name\": " ++ JsonText.encode s.packageName ++ ",",
    "  \"version\": " ++ JsonText.encode version ++ ",",
    "  \"description\": " ++ JsonText.encode (Text.strip (s.title ++ " client")) ++ ",",
    "  \"main\": \"dist/index.js\",",
    "  \"types\": \"dist/index.d.ts\",",
    "  \"files\": [",
    "    \"dist\"",
    "  ],",
    "  \"scripts\": \x7b",
    "    \"build\": \"tsc\",",
    "    \"prepublishOnly\": \"npm run build\"",
    "  \x7d,",
    "  \"devDependencies\": \x7b",
    "    \"typescript\": \"^5.4.0\"",
    "  \x7d",
    "\x7d"]

/-- The settings of the compiler. -/
def compilerSettingsText : String :=
  unlines [
    "\x7b",
    "  \"compilerOptions\": \x7b",
    "    \"target\": \"ES2019\",",
    "    \"module\": \"commonjs\",",
    "    \"declaration\": true,",
    "    \"outDir\": \"dist\",",
    "    \"rootDir\": \"src\",",
    "    \"strict\": true,",
    "    \"esModuleInterop\": true,",
    "    \"skipLibCheck\": true",
    "  \x7d,",
    "  \"include\": [",
    "    \"src\"",
    "  ]",
    "\x7d"]

/-- The readme of the package. -/
def readmeText (s : Summary) : String :=
  unlines [
    "# " ++ s.packageName,
    "",
    "TypeScript client for " ++ titleOr s.title "the API" ++ versionSuffix s.version ++
      ", generated by tsclientgen.",
    "It exposes " ++ toString s.methodCount ++ " methods on `" ++ clientClass ++ "` and " ++
      toString s.typeCount ++ " type declarations.",
    "",
    "## Usage",
    "",
    "```ts",
    "import \x7b " ++ clientClass ++ " \x7d from '" ++ s.packageName ++ "';",
    "",
    "const client = new " ++ clientClass ++ "(http);",
    "```",
    "",
    "`http` is any object implementing `" ++ transportInterface ++ "`: five methods (`get`,",
    "`post`, `put`, `delete`, `patch`) that perform the request and resolve to",
    "`\x7b data \x7d`.",
    "",
    "## Build",
    "",
    "```sh",
    "npm install",
    "npm run build",
    "```"]

end TypedClient.Package
