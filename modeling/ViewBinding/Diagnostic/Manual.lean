import ViewBinding.Diagnostic.Code

namespace ViewBinding.Manual

def page (lines : List String) : String := String.join (lines.map (· ++ "\n"))

def hiddenMember : String := page [
  "# E1001: Annotated Member Is Private or Static",
  "",
  "A field annotated with `@ViewById` or a method annotated with `@OnClick` is",
  "declared `private` or `static`.",
  "",
  "The generated `<Host>$$Proxy` class lives in the same package as the host",
  "and assigns fields or calls methods through a `target` instance. It cannot",
  "reach a `private` member, and a `static` member has no instance to bind to.",
  "",
  "The same error is reported when the host class, or any class it is nested",
  "in, is declared `private`: the companion is a separate top-level class and",
  "cannot name the host type.",
  "",
  "## Example",
  "",
  "```java",
  "public class MainActivity extends Activity \x7b",
  "    @ViewById(R.id.title)",
  "    private TextView title; // error: E1001",
  "",
  "    @OnClick(R.id.send)",
  "    static void onSend(View v) \x7b \x7d // error: E1001",
  "\x7d",
  "```",
  "",
  "```java",
  "public class MainActivity extends Activity \x7b",
  "    private static class Holder \x7b",
  "        @ViewById(R.id.title)",
  "        TextView title; // error: E1001, Holder is private",
  "    \x7d",
  "\x7d",
  "```",
  "",
  "## Solution",
  "",
  "Use package-private, `protected` or `public` instance members:",
  "",
  "```java",
  "public class MainActivity extends Activity \x7b",
  "    @ViewById(R.id.title)",
  "    TextView title;",
  "",
  "    @OnClick(R.id.send)",
  "    void onSend(View v) \x7b \x7d",
  "\x7d",
  "```",
  "",
  "The whole round is aborted when this error is reported. No proxy classes",
  "are written for any host in that round."]

def notInClass : String := page [
  "# E1002: Annotated Member Is Not in a Class",
  "",
  "A `@ViewById` field or `@OnClick` method is declared inside an interface,",
  "enum, record or annotation type.",
  "",
  "Proxies are only generated for classes.",
  "",
  "## Example",
  "",
  "```java",
  "public interface Screen \x7b",
  "    @OnClick(R.id.send)",
  "    void onSend(View v); // error: E1002",
  "\x7d",
  "```",
  "",
  "## Solution",
  "",
  "Move the annotated member into the implementing class:",
  "",
  "```java",
  "public class ScreenActivity extends Activity implements Screen \x7b",
  "    @OnClick(R.id.send)",
  "    public void onSend(View v) \x7b \x7d",
  "\x7d",
  "```"]

def frameworkHost : String := page [
  "# E1003: Annotated Class Is in the Android Framework Package",
  "",
  "The class that declares an annotated member has a qualified name starting",
  "with `android.`.",
  "",
  "Generated companions would have to be placed inside the framework",
  "namespace, which application code is not allowed to define.",
  "",
  "## Example",
  "",
  "```java",
  "package android.widget.custom;",
  "",
  "public class Panel \x7b",
  "    @ViewById(1)",
  "    View header; // error: E1003",
  "\x7d",
  "```",
  "",
  "## Solution",
  "",
  "Move the class into an application package such as `com.example.widget`."]

def coreHost : String := page [
  "# E1004: Annotated Class Is in the Java Core Package",
  "",
  "The class that declares an annotated member has a qualified name starting",
  "with `java.`.",
  "",
  "The Java runtime refuses classes defined in its own namespace, so the",
  "generated companion could never be loaded.",
  "",
  "## Example",
  "",
  "```java",
  "package java.util.ui;",
  "",
  "public class Picker \x7b",
  "    @ViewById(1)",
  "    View list; // error: E1004",
  "\x7d",
  "```",
  "",
  "## Solution",
  "",
  "Move the class into an application package."]

def manyParameters : String := page [
  "# E2001: Click Handler Has Too Many Parameters",
  "",
  "A method annotated with `@OnClick` declares more than one parameter.",
  "",
  "The generated listener only receives the clicked `View`, so there is",
  "nothing to pass for any further parameter.",
  "",
  "## Example",
  "",
  "```java",
  "@OnClick(R.id.send)",
  "void onSend(View v, int position) \x7b \x7d // error: E2001",
  "```",
  "",
  "## Solution",
  "",
  "Declare at most one parameter:",
  "",
  "```java",
  "@OnClick(R.id.send)",
  "void onSend(View v) \x7b \x7d",
  "",
  "@OnClick(R.id.cancel)",
  "void onCancel() \x7b \x7d",
  "```",
  "",
  "The proxy for the host class is not generated. Other hosts in the same",
  "round are unaffected."]

def notView : String := page [
  "# E2002: Click Handler Parameter Is Not a View",
  "",
  "A method annotated with `@OnClick` declares one parameter whose type is not",
  "`android.view.View`.",
  "",
  "The generated listener forwards the clicked view as-is, so the parameter",
  "type must be exactly `View`.",
  "",
  "## Example",
  "",
  "```java",
  "@OnClick(R.id.send)",
  "void onSend(Button b) \x7b \x7d // error: E2002",
  "```",
  "",
  "## Solution",
  "",
  "Take a `View` and cast inside the handler if needed:",
  "",
  "```java",
  "@OnClick(R.id.send)",
  "void onSend(View v) \x7b",
  "    Button b = (Button) v;",
  "\x7d",
  "```",
  "",
  "The proxy for the host class is not generated. Other hosts in the same",
  "round are unaffected."]

def writeFailure : String := page [
  "# E3001: Failed to Write Generated Source",
  "",
  "The generator could not write a proxy source file to the output directory.",
  "",
  "Common causes are a missing or read-only output directory, or a full disk.",
  "The message includes the underlying I/O error.",
  "",
  "## Solution",
  "",
  "Check that the directory passed with `--out-dir` exists and is writable.",
  "Only the class that failed to write is skipped. Other proxies in the",
  "round are still written."]

def alreadyWritten : String := page [
  "# E3002: Generated Source Already Exists",
  "",
  "The generator attempted to create a source file that was already created",
  "earlier in the same invocation.",
  "",
  "This happens when two rounds bind the same host class, or when two hosts",
  "map to the same companion name after the suffix is applied.",
  "",
  "## Solution",
  "",
  "Make sure every host class appears in only one round of the manifest.",
  "If a custom `--suffix` is in use, check that it does not make two",
  "companion names collide."]

def noViewIds : String := page [
  "# W2001: Click Handler Lists No View Ids",
  "",
  "A method is annotated with `@OnClick` but the annotation lists no ids.",
  "",
  "The listener is still created and assigned, but it is never registered on",
  "any view, so the method is never called.",
  "",
  "## Example",
  "",
  "```java",
  "@OnClick(\x7b\x7d)",
  "void onSend(View v) \x7b \x7d // warning: W2001",
  "```",
  "",
  "## Solution",
  "",
  "List at least one view id, or remove the annotation."]

def text : Code → String
  | .hiddenMember => hiddenMember
  | .notInClass => notInClass
  | .frameworkHost => frameworkHost
  | .coreHost => coreHost
  | .manyParameters => manyParameters
  | .notView => notView
  | .writeFailure => writeFailure
  | .alreadyWritten => alreadyWritten
  | .noViewIds => noViewIds

end ViewBinding.Manual
